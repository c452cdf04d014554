import Goisis.Server.Update

/-!
# Runs of a server

The update process as a transition system. An operation (`Op`) is one step the Serve loop can take
on the database: a received LSP, one origination, one purge of an LSP of ours, one entry of the
ageing pass, one release of a held-down ID, or any change around the database (circuits,
adjacencies, DIS elections, levels, overload). The bigger functions of the source are sequences of
operations (`Goisis.Server.Originate`). A run takes any operations in any order at non-decreasing
times.

Everything later invariants need is said here once:

* `exec_outcome` — the one case analysis of an operation, over what it does to the whole server;
* `exec_change` — what one operation can do to one entry of the database (`EntryChange`);
* `exec_hold` — what one operation can do to one hold-down;
* `exec_config` — the identity and the keys of a server never change.
-/

namespace Goisis.Server

open Lib Packet IsisServer Circuit

variable {ok : IsisServer → Int → Op → Prop} {o : Options}

/-! ## Operations -/

/-- What the environment of the database may look like after a step that does not touch an entry. -/
structure Environment where
  circuits : List Circuit
  levelCap : LevelSet
  newLevels : LevelSet
  lspBufferSize : Int
  overloadUntil : Option Int
  overloadManual : Bool
  spfDirty : Bool
  lspGenPending : Bool
  nextExtCircID : UInt32
  pseudonodeCursor : Nat

/-- One step of the update process. -/
inductive Op where
  /-- A frame on a circuit; one that decodes to an LSP goes to `processLSP`. -/
  | receive (cn : String) (raw : Bytes) (jitter : Int)
  /-- `originate` for one of our own LSP IDs. -/
  | originate (level : Level) (pseudonode fragment : UInt8) (tlvs : List TLV) (att force : Bool)
      (jitter : Int)
  /-- `purgeOwn` as its callers reach it: on a live LSP of ours. -/
  | purge (level : Level) (id : LSPID)
  /-- One entry of `ageLSPs`. -/
  | age (level : Level) (id : LSPID)
  /-- One key of the hold-down loop of `refreshOwnLSPs`. -/
  | release (level : Level) (id : LSPID)
  /-- Anything else: circuits, adjacencies, DIS changes, levels, overload. -/
  | environment (env : Environment)

namespace IsisServer

variable (s : IsisServer)

/-- The guard of `purgeStaleFragments` and `purgeOwnLSPs`: ours and live. -/
def purgeLive (level : Level) (id : LSPID) (now : Int) : IsisServer :=
  match s.entryAt level id with
  | none => s
  | some e => if e.own ∧ e.purgedAt = none then s.purgeOwn level id now else s

/-- One key of the loop of `refreshOwnLSPs` over the hold-downs. -/
def releaseHold (level : Level) (id : LSPID) (now : Int) : IsisServer :=
  match s.seqWrapUntil.lookup (level, id) with
  | none => s
  | some deadline =>
    if deadline ≤ now then { s with seqWrapUntil := s.seqWrapUntil.erase (level, id) } else s

/-- A change around the database: a level may gain an empty database, none loses one. -/
def changeEnvironment (env : Environment) : IsisServer :=
  { s with
    circuits := env.circuits
    levelCap := env.levelCap
    dbs := fun l => if env.newLevels.has l ∧ (s.dbs l).isNone then some ∅ else s.dbs l
    lspBufferSize := env.lspBufferSize
    overloadUntil := env.overloadUntil
    overloadManual := env.overloadManual
    spfDirty := env.spfDirty
    lspGenPending := env.lspGenPending
    nextExtCircID := env.nextExtCircID
    pseudonodeCursor := env.pseudonodeCursor }

/-- `DecodePDU` and `processLSP` on a received frame. -/
def receive (cn : String) (raw : Bytes) (now jitter : Int) : IsisServer :=
  match decodePDU raw with
  | .ok (.lsp lsp) => s.processLSP cn raw lsp now jitter
  | _ => s

end IsisServer

/-- The effect of an operation at an instant. -/
def Op.exec (op : Op) (now : Int) (s : IsisServer) : IsisServer :=
  match op with
  | .receive cn raw jitter => s.receive cn raw now jitter
  | .originate level pn fragment tlvs att force jitter =>
    s.originate level ⟨⟨s.systemID, pn⟩, fragment⟩ tlvs att force now jitter
  | .purge level id => s.purgeLive level id now
  | .age level id => s.ageEntry level id now
  | .release level id => s.releaseHold level id now
  | .environment env => s.changeEnvironment env

/-! ## Runs -/

/-- A server at an instant. -/
abbrev Clocked := Int × IsisServer

/-- One step of a run: time does not go back, and the operation meets `ok` in the state before. -/
def Step (ok : IsisServer → Int → Op → Prop) (a b : Clocked) : Prop :=
  ∃ op : Op, a.1 ≤ b.1 ∧ ok a.2 b.1 op ∧ b.2 = op.exec b.1 a.2

/-- The steps of an unrestricted run. -/
def AnyOp : IsisServer → Int → Op → Prop := fun _ _ _ => True

/-- A run of any length. -/
def Steps (ok : IsisServer → Int → Op → Prop) : Clocked → Clocked → Prop :=
  Relation.ReflTransGen (Step ok)

/-- The states a server constructed from `o` reaches by steps that meet `ok`. -/
def ReachableVia (ok : IsisServer → Int → Op → Prop) (o : Options) (c : Clocked) : Prop :=
  ∃ t s, newIsisServer o = some s ∧ Steps ok (t, s) c

/-- The states a server constructed from `o` reaches. -/
def Reachable (o : Options) (c : Clocked) : Prop := ReachableVia AnyOp o c

/-- **The invariant rule**: what holds of a constructed server and is kept by every step holds in
every reachable state. -/
theorem ReachableVia.invariant {I : Clocked → Prop} {c : Clocked} (h : ReachableVia ok o c)
    (init : ∀ t s, newIsisServer o = some s → I (t, s)) (step : ∀ a b, I a → Step ok a b → I b) :
    I c := by
  obtain ⟨t, s, hs, hsteps⟩ := h
  induction hsteps with
  | refl => exact init t s hs
  | tail _ hstep ih => exact step _ _ ih hstep

theorem Steps.weaken {ok ok' : IsisServer → Int → Op → Prop} {a b : Clocked} (h : Steps ok a b)
    (himp : ∀ s now op, ok s now op → ok' s now op) : Steps ok' a b := by
  refine Relation.ReflTransGen.mono (fun x y hxy => ?_) _ _ h
  obtain ⟨op, hle, hok, heq⟩ := hxy
  exact ⟨op, hle, himp _ _ _ hok, heq⟩

theorem ReachableVia.reachable {c : Clocked} (h : ReachableVia ok o c) : Reachable o c := by
  obtain ⟨t, s, hs, hsteps⟩ := h
  exact ⟨t, s, hs, hsteps.weaken fun _ _ _ _ => trivial⟩

theorem ReachableVia.trans {c d : Clocked} (h : ReachableVia ok o c) (hsteps : Steps ok c d) :
    ReachableVia ok o d := by
  obtain ⟨t, s, hs, hto⟩ := h
  exact ⟨t, s, hs, Relation.ReflTransGen.trans hto hsteps⟩

theorem ReachableVia.first {s : IsisServer} (h : newIsisServer o = some s) (t : Int) (op : Op)
    (hok : ok s t op) : ReachableVia ok o (t, op.exec t s) :=
  ⟨t, s, h, .single ⟨op, Int.le_refl t, hok, rfl⟩⟩

/-! ## When an operation signs -/

/-- The copies of a received LSP and of the database conflict: same sequence number, both live,
different checksums. -/
def Conflicts (lsp : LSP) (ex : LspEntry) (now : Int) : Prop :=
  lsp.sequenceNumber = ex.lsp.sequenceNumber ∧ lsp.remainingTime ≠ 0 ∧ ex.remaining now ≠ 0 ∧
    lsp.checksum ≠ ex.lsp.checksum

/-- A received LSP under our own system ID that `handleOwnSystemID` consumes. -/
def ConsumedAsOurs (s : IsisServer) (lsp : LSP) (now : Int) : Prop :=
  newer lsp.sequenceNumber lsp.remainingTime (s.entryAt lsp.level lsp.lspID) now = true ∧
    lsp.lspID.nodeID.systemID = s.systemID ∧
    (lsp.remainingTime ≠ 0 ∨
      s.currentlyOriginates lsp.level lsp.lspID (s.entryAt lsp.level lsp.lspID) = true)

/-- The operation makes this node serialize (`serializeLSP`) an LSP at the level. -/
def Op.Signs (op : Op) (s : IsisServer) (now : Int) (level : Level) : Prop :=
  match op with
  | .receive _ raw _ => ∃ lsp, decodePDU raw = .ok (.lsp lsp) ∧ lsp.level = level ∧
      ((∃ ex, s.entryAt level lsp.lspID = some ex ∧ Conflicts lsp ex now) ∨
        ConsumedAsOurs s lsp now)
  | .originate l pn fragment tlvs att force _ =>
    let id : LSPID := ⟨⟨s.systemID, pn⟩, fragment⟩
    l = level ∧ s.heldDown l id now = false ∧
      ∃ body, serializeTLVs (s.keyedTLVs l tlvs) = .ok body ∧
        unchanged (s.entryAt l id) body (s.overloadBit id now) att force = false
  | .purge l id => l = level ∧ ∃ e, s.entryAt l id = some e ∧ e.own = true ∧ e.purgedAt = none
  | .age l id => l = level ∧ ∃ e, s.entryAt l id = some e ∧ e.own = false ∧ e.purgedAt = none ∧
      e.remaining now = 0
  | .release _ _ => False
  | .environment _ => False

/-! ## Entries of this node's making -/

/-- The sequence number `originate` and `purgeOwn` take: one above the stored copy, 1 without
one. -/
def IsNextSeq (s : IsisServer) (level : Level) (id : LSPID) (seq : UInt32) : Prop :=
  (s.entryAt level id = none ∧ seq = 1) ∨
    ∃ ex, s.entryAt level id = some ex ∧ ex.lsp.sequenceNumber ≠ maxLSPSeq ∧
      seq = ex.lsp.sequenceNumber + 1

/-- The entries an operation can put under `id` at `level` by serializing an LSP of this node's
making. -/
inductive SignedEntry (op : Op) (s : IsisServer) (now : Int) (level : Level) (id : LSPID) :
    LspEntry → Prop where
  /-- An LSP built by `originate`, not held down. -/
  | originated (seq : UInt32) (pn fragment : UInt8) (tlvs : List TLV) (att force : Bool)
      (jitter : Int) (raw : Bytes) (lsp : LSP)
      (hop : op = .originate level pn fragment tlvs att force jitter)
      (hid : id = ⟨⟨s.systemID, pn⟩, fragment⟩) (hheld : s.heldDown level id now = false)
      (hseq : IsNextSeq s level id seq)
      (hser : s.serializeLSP (s.ownLSP level id seq tlvs att now) = .ok (raw, lsp)) :
      SignedEntry op s now level id (ownLive lsp raw now jitter)
  /-- An LSP of ours re-originated above a sequence number seen on the wire. -/
  | reclaimed (ex : LspEntry) (seen : UInt32) (jitter : Int) (raw : Bytes) (lsp : LSP)
      (hex : s.entryAt level id = some ex) (hown : ex.own = true)
      (hlive : ex.purgedAt = none ∨ ex.remaining now ≠ 0)
      (hseen : ex.lsp.sequenceNumber ≤ seen) (hmax : seen ≠ maxLSPSeq)
      (hser : s.serializeLSP
        { ex.lsp with sequenceNumber := seen + 1, remainingTime := maxAgeSeconds } =
        .ok (raw, lsp)) :
      SignedEntry op s now level id (ownLive lsp raw now jitter)
  /-- A purge of a live LSP of ours. -/
  | purged (ex : LspEntry) (raw : Bytes) (lsp : LSP) (hex : s.entryAt level id = some ex)
      (hown : ex.own = true) (hmax : ex.lsp.sequenceNumber ≠ maxLSPSeq)
      (hser : s.makePurge level id (ex.lsp.sequenceNumber + 1) = .ok (raw, lsp)) :
      SignedEntry op s now level id (ownPurge lsp raw now)
  /-- The purge of an exhausted LSP ID of ours. -/
  | exhausted (ex : LspEntry) (raw : Bytes) (lsp : LSP) (hex : s.entryAt level id = some ex)
      (hsys : id.nodeID.systemID = s.systemID ∨ ex.own = true)
      (hser : s.makePurge level id maxLSPSeq = .ok (raw, lsp)) :
      SignedEntry op s now level id (ownPurge lsp raw now)
  /-- A foreign copy that ran out or conflicts is turned into a purge at its sequence number. -/
  | expired (ex : LspEntry) (raw : Bytes) (lsp : LSP) (hex : s.entryAt level id = some ex)
      (hown : ex.own = false)
      (hser : s.makePurge level id ex.lsp.sequenceNumber = .ok (raw, lsp)) :
      SignedEntry op s now level id { ex with
        lsp := lsp, raw := raw, purgedAt := some now, lifetime := 0, inserted := now }
  /-- A stranger's live LSP under our system ID, purged at its own sequence number. -/
  | stranger (seen : LSP) (raw : Bytes) (lsp : LSP)
      (hsys : id.nodeID.systemID = s.systemID) (hrem : seen.remainingTime ≠ 0)
      (hnewer : newer seen.sequenceNumber seen.remainingTime (s.entryAt level id) now = true)
      (hser : s.makePurge level id seen.sequenceNumber = .ok (raw, lsp)) :
      SignedEntry op s now level id ⟨lsp, raw, now, 0, false, some now, 0⟩

/-- What the functions that serialize an LSP under `id` at `level` can do to the server: nothing, or
store the new entry and flood it, the ID held down with it when the sequence numbers ran out. -/
inductive Signed (op : Op) (s : IsisServer) (now : Int) (level : Level) (id : LSPID) :
    IsisServer → Prop where
  | unchanged : Signed op s now level id s
  | stored (e : LspEntry) (h : SignedEntry op s now level id e) :
      Signed op s now level id (s.storeAndFlood level id e now)
  | held (e : LspEntry) (h : SignedEntry op s now level id e) (hpurge : e.purgedAt = some now) :
      Signed op s now level id ((s.holdDown level id now).storeAndFlood level id e now)

section Signed

variable {op : Op} {s : IsisServer} {level : Level} {id : LSPID} {now jitter : Int}

variable {ex : LspEntry}

theorem exhaustSeq_eq (s : IsisServer) (level : Level) (id : LSPID) (now : Int) :
    ∃ raw lsp, s.makePurge level id maxLSPSeq = .ok (raw, lsp) ∧
      s.exhaustSeq level id now = (s.holdDown level id now).storeAndFlood level id
        (ownPurge lsp raw now) now := by
  obtain ⟨raw, lsp, h⟩ := s.makePurge_ok level id maxLSPSeq
  refine ⟨raw, lsp, h, ?_⟩
  have h' : (s.holdDown level id now).makePurge level id maxLSPSeq = .ok (raw, lsp) := h
  unfold exhaustSeq
  simp only [h']

theorem exhaustSeq_signed (hex : s.entryAt level id = some ex)
    (hsys : id.nodeID.systemID = s.systemID ∨ ex.own = true) :
    Signed op s now level id (s.exhaustSeq level id now) := by
  obtain ⟨raw, lsp, hser, heq⟩ := exhaustSeq_eq s level id now
  rw [heq]
  exact .held _ (.exhausted ex raw lsp hex hsys hser) rfl

theorem expirePurge_signed (hex : s.entryAt level id = some ex) (hown : ex.own = false) :
    Signed op s now level id (s.expirePurge level id ex now) := by
  unfold expirePurge
  obtain ⟨raw, lsp, hser⟩ := s.makePurge_ok level id ex.lsp.sequenceNumber
  simp only [hser]
  exact .stored _ (.expired ex raw lsp hex hown hser)

theorem reoriginateOwn_signed {seen : UInt32} (hex : s.entryAt level id = some ex)
    (hown : ex.own = true) (hlive : ex.purgedAt = none ∨ ex.remaining now ≠ 0)
    (hseen : ex.lsp.sequenceNumber ≤ seen) :
    Signed op s now level id (s.reoriginateOwn level id seen now jitter) := by
  unfold reoriginateOwn
  simp only [hex]
  split
  · exact exhaustSeq_signed hex (.inr hown)
  rename_i hmax
  split
  · exact .unchanged
  · rename_i raw lsp hser
    exact .stored _ (.reclaimed ex seen jitter raw lsp hex hown hlive hseen hmax hser)

theorem stranger_signed {seen : LSP} (hsys : id.nodeID.systemID = s.systemID)
    (hrem : seen.remainingTime ≠ 0)
    (hnewer : newer seen.sequenceNumber seen.remainingTime (s.entryAt level id) now = true) :
    Signed op s now level id ((s.putEntry level id ⟨seen, [], 0, 0, false, none, 0⟩).expirePurge
      level id ⟨seen, [], 0, 0, false, none, 0⟩ now) := by
  obtain ⟨raw, lsp, hser⟩ := s.makePurge_ok level id seen.sequenceNumber
  have hser' : (s.putEntry level id ⟨seen, [], 0, 0, false, none, 0⟩).makePurge level id
      seen.sequenceNumber = .ok (raw, lsp) := hser
  unfold expirePurge
  simp only [hser', storeAndFlood, putEntry_putEntry]
  exact .stored _ (.stranger seen raw lsp hsys hrem hnewer hser)

theorem originateAt_signed {seq : UInt32} {pn fragment : UInt8} {tlvs : List TLV} {att force : Bool}
    (hop : op = .originate level pn fragment tlvs att force jitter)
    (hid : id = ⟨⟨s.systemID, pn⟩, fragment⟩) (hheld : s.heldDown level id now = false)
    (hseq : IsNextSeq s level id seq) :
    Signed op s now level id (s.originateAt level id seq tlvs att now jitter) := by
  unfold originateAt
  split
  · exact .unchanged
  rename_i raw lsp hser
  split
  · exact .unchanged
  · exact .stored _
      (.originated seq pn fragment tlvs att force jitter raw lsp hop hid hheld hseq hser)

theorem purgeOwn_signed (hex : s.entryAt level id = some ex) (hown : ex.own = true) :
    Signed op s now level id (s.purgeOwn level id now) := by
  simp only [purgeOwn, hex]
  split
  · exact exhaustSeq_signed hex (.inr hown)
  rename_i hmax
  unfold purgeOwnAt
  obtain ⟨raw, lsp, hser⟩ := s.makePurge_ok level id (ex.lsp.sequenceNumber + 1)
  simp only [hser]
  exact .stored _ (.purged ex raw lsp hex hown hmax hser)

end Signed

/-! ## The outcomes of an operation -/

/-- A change of flags that keeps the circuit's configuration and every SRM flag. -/
structure KeepsSRM (f : Circuit → Circuit) : Prop where
  cfg : ∀ c, (f c).cfg = c.cfg
  maps : ∀ c l, ((f c).srm l).isSome = (c.srm l).isSome
  srm : ∀ c l id, (c.srmAt l id).isSome = true → ((f c).srmAt l id).isSome = true

theorem KeepsSRM.comp {f g : Circuit → Circuit} (hf : KeepsSRM f) (hg : KeepsSRM g) :
    KeepsSRM fun c => g (f c) where
  cfg c := (hg.cfg (f c)).trans (hf.cfg c)
  maps c l := (hg.maps (f c) l).trans (hf.maps c l)
  srm c l id h := hg.srm (f c) l id (hf.srm c l id h)

/-- What an operation can do to the server. -/
inductive OpOutcome (op : Op) (s : IsisServer) (now : Int) : IsisServer → Prop where
  | unchanged : OpOutcome op s now s
  /-- This node serializes an LSP. -/
  | signed (level : Level) (id : LSPID) (s' : IsisServer) (hsigns : op.Signs s now level)
      (h : Signed op s now level id s') : OpOutcome op s now s'
  /-- A received LSP changes flags of its circuit. -/
  | flagged (cn : String) (raw : Bytes) (jitter : Int) (f : Circuit → Circuit)
      (hop : op = .receive cn raw jitter) (hf : KeepsSRM f)
      (hflags : ∀ c, (f c).unflagged = c.unflagged) :
      OpOutcome op s now (s.onCircuit cn f)
  /-- A received LSP, newer than the stored one, is installed. -/
  | installed (cn : String) (raw : Bytes) (jitter : Int) (lsp : LSP) (c : Circuit)
      (hop : op = .receive cn raw jitter) (hdecode : decodePDU raw = .ok (.lsp lsp))
      (hc : s.circuitNamed cn = some c)
      (hvalid : lsp.remainingTime ≠ 0 → lspChecksumValidRaw raw = true)
      (hnewer : newer lsp.sequenceNumber lsp.remainingTime (s.entryAt lsp.level lsp.lspID)
        now = true)
      (hsys : lsp.lspID.nodeID.systemID = s.systemID → lsp.remainingTime = 0) :
      OpOutcome op s now (s.installLSP c raw lsp now)
  /-- A purge held for ZeroAgeLifetime is dropped. -/
  | dropped (level : Level) (id : LSPID) (ex : LspEntry) (t : Int)
      (hex : s.entryAt level id = some ex) (hpurged : ex.purgedAt = some t)
      (hage : zeroAgeSeconds * second ≤ now - t) :
      OpOutcome op s now (s.deleteEntry level id).markDirty
  /-- A hold-down that ran out is released. -/
  | released (level : Level) (id : LSPID) (u : Int)
      (hu : s.seqWrapUntil.lookup (level, id) = some u) (hrun : u ≤ now) :
      OpOutcome op s now { s with seqWrapUntil := s.seqWrapUntil.erase (level, id) }
  | environment (env : Environment) (hop : op = .environment env) :
      OpOutcome op s now (s.changeEnvironment env)

section Outcomes

variable {s : IsisServer} {level : Level} {id : LSPID} {now jitter : Int}

theorem originate_outcome (pn fragment : UInt8) (tlvs : List TLV) (att force : Bool) :
    OpOutcome (.originate level pn fragment tlvs att force jitter) s now
      (s.originate level ⟨⟨s.systemID, pn⟩, fragment⟩ tlvs att force now jitter) := by
  unfold originate
  split
  · exact .unchanged
  rename_i hheld
  have hheld' : s.heldDown level ⟨⟨s.systemID, pn⟩, fragment⟩ now = false := by simpa using hheld
  split
  · exact .unchanged
  rename_i body hbody
  split
  · exact .unchanged
  rename_i hunch
  have hsigns : (Op.originate level pn fragment tlvs att force jitter).Signs s now level :=
    ⟨rfl, hheld', body, hbody, by simpa using hunch⟩
  cases hex : s.entryAt level ⟨⟨s.systemID, pn⟩, fragment⟩ with
  | none => exact .signed level _ _ hsigns (originateAt_signed rfl rfl hheld' (.inl ⟨hex, rfl⟩))
  | some ex =>
    simp only
    split
    · exact .signed level _ _ hsigns (exhaustSeq_signed hex (.inl rfl))
    rename_i hmax
    exact .signed level _ _ hsigns
      (originateAt_signed rfl rfl hheld' (.inr ⟨ex, hex, hmax, rfl⟩))

theorem purge_outcome : OpOutcome (.purge level id) s now (s.purgeLive level id now) := by
  unfold purgeLive
  cases hex : s.entryAt level id with
  | none => exact .unchanged
  | some ex =>
    simp only
    split
    · rename_i hown
      have hsigns : (Op.purge level id).Signs s now level := ⟨rfl, ex, hex, hown.1, hown.2⟩
      exact .signed level id _ hsigns (purgeOwn_signed hex hown.1)
    · exact .unchanged

theorem age_outcome : OpOutcome (.age level id) s now (s.ageEntry level id now) := by
  unfold ageEntry
  cases hex : s.entryAt level id with
  | none => exact .unchanged
  | some e =>
    simp only
    cases hp : e.purgedAt with
    | some t =>
      simp only
      split
      · exact .dropped level id e t hex hp ‹_›
      · exact .unchanged
    | none =>
      by_cases hdue : e.own = true ∧ e.refreshAt ≤ now
      · rw [if_pos hdue]
        exact .unchanged
      rw [if_neg hdue]
      by_cases hrem : e.remaining now = 0
      · rw [if_pos hrem]
        cases hown : e.own with
        | true => exact .unchanged
        | false =>
          have hsigns : (Op.age level id).Signs s now level := ⟨rfl, e, hex, hown, hp, hrem⟩
          exact .signed level id _ hsigns (expirePurge_signed hex hown)
      · rw [if_neg hrem]
        exact .unchanged

theorem keepsSRM_setSRM (l : Level) (i : LSPID) (t : Int) : KeepsSRM (·.setSRM l i t) where
  cfg _ := rfl
  maps _ _ := srm_isSome_setSRM
  srm c l' id h := by
    rw [srmAt_setSRM]
    split
    · rfl
    · exact h

theorem keepsSRM_clearSSN (l : Level) (i : LSPID) : KeepsSRM (·.clearSSN l i) where
  cfg _ := rfl
  maps _ _ := rfl
  srm _ _ _ h := h

theorem keepsSRM_setSSN (l : Level) (i : LSPID) : KeepsSRM (·.setSSN l i) where
  cfg _ := rfl
  maps _ _ := rfl
  srm _ _ _ h := h

theorem keepsSRM_setSSNAck (l : Level) (e : LSPEntry) : KeepsSRM (·.setSSNAck l e) where
  cfg _ := cfg_setSSNAck
  maps c l' := by
    unfold setSSNAck
    split <;> rfl
  srm _ _ _ h := by rw [srmAt_setSSNAck]; exact h

theorem receive_outcome (cn : String) (raw : Bytes) :
    OpOutcome (.receive cn raw jitter) s now (s.receive cn raw now jitter) := by
  unfold receive
  split
  · rename_i lsp hdecode
    rcases s.processLSP_outcome cn raw lsp now jitter with heq | ⟨c, hc, hdb, hvalid, hout⟩
    · rw [heq]
      exact .unchanged
    have hname := name_of_circuitNamed hc
    have hconflict : ∀ ex, s.entryAt lsp.level lsp.lspID = some ex → Conflicts lsp ex now →
        (Op.receive cn raw jitter).Signs s now lsp.level :=
      fun ex hex hconf => ⟨lsp, hdecode, rfl, .inl ⟨ex, hex, hconf⟩⟩
    have hours : ConsumedAsOurs s lsp now → (Op.receive cn raw jitter).Signs s now lsp.level :=
      fun hcons => ⟨lsp, hdecode, rfl, .inr hcons⟩
    generalize s.processLSP cn raw lsp now jitter = s' at hout
    cases hout with
    | ignored => exact .unchanged
    | sendOurs =>
      rw [hname]
      exact .flagged cn raw jitter _ rfl
        ((keepsSRM_setSRM lsp.level lsp.lspID now).comp (keepsSRM_clearSSN lsp.level lsp.lspID))
        fun c => c.unflagged_srm _ _
    | acknowledge =>
      rw [hname]
      exact .flagged cn raw jitter _ rfl (keepsSRM_setSSN lsp.level lsp.lspID) fun _ => rfl
    | unknownPurge =>
      rw [hname]
      refine .flagged cn raw jitter _ rfl (keepsSRM_setSSNAck lsp.level _) fun c => ?_
      unfold setSSNAck
      split <;> rfl
    | conflict ex hex hseq hrem hlive hsum hown =>
      exact .signed lsp.level lsp.lspID _ (hconflict ex hex ⟨hseq, hrem, hlive, hsum⟩)
        (expirePurge_signed hex hown)
    | conflictOwn ex hex hseq hrem hlive hsum hown =>
      exact .signed lsp.level lsp.lspID _ (hconflict ex hex ⟨hseq, hrem, hlive, hsum⟩)
        (reoriginateOwn_signed hex hown (.inr hlive) (UInt32.le_of_eq hseq.symm))
    | reclaim ex hex hnewer hsys howns hown hpurged =>
      have hle : ex.lsp.sequenceNumber ≤ lsp.sequenceNumber := by
        rcases newer_some_iff.mp hnewer with h | ⟨h, -, -⟩
        · exact UInt32.le_of_lt h
        · exact UInt32.le_of_eq h.symm
      have hcur : s.currentlyOriginates lsp.level lsp.lspID
          (s.entryAt lsp.level lsp.lspID) = true := by
        simp [currentlyOriginates, hex, howns, hown, hpurged]
      exact .signed lsp.level lsp.lspID _ (hours ⟨by rw [hex]; exact hnewer, hsys, .inr hcur⟩)
        (reoriginateOwn_signed hex hown (.inl hpurged) hle)
    | stranger hnewer hsys hrem =>
      exact .signed lsp.level lsp.lspID _ (hours ⟨hnewer, hsys, .inl hrem⟩)
        (stranger_signed hsys hrem hnewer)
    | install hnewer hsys _ =>
      exact .installed cn raw jitter lsp c rfl hdecode hc hvalid hnewer hsys
  · exact .unchanged

theorem release_outcome : OpOutcome (.release level id) s now (s.releaseHold level id now) := by
  unfold releaseHold
  split
  · exact .unchanged
  rename_i u hu
  split
  · exact .released level id u hu ‹_›
  · exact .unchanged

end Outcomes

/-- **The one case analysis of an operation**. -/
theorem exec_outcome (op : Op) (s : IsisServer) (now : Int) :
    OpOutcome op s now (op.exec now s) := by
  cases op with
  | receive cn raw jitter => exact receive_outcome cn raw
  | originate level pn fragment tlvs att force jitter =>
    exact originate_outcome pn fragment tlvs att force
  | purge level id => exact purge_outcome
  | age level id => exact age_outcome
  | release level id => exact release_outcome
  | environment env => exact .environment env rfl

/-! ## What an operation can do to one entry -/

/-- What may stand under `id` at `level` after an operation that changed it. -/
inductive EntryChange (op : Op) (s : IsisServer) (now : Int) (level : Level) (id : LSPID) :
    Option LspEntry → Prop where
  /-- This node serialized the new entry itself. -/
  | signed (e : LspEntry) (hsigns : op.Signs s now level) (h : SignedEntry op s now level id e) :
      EntryChange op s now level id (some e)
  /-- A received copy, newer than the stored one; under our system ID only a purge. -/
  | received (raw : Bytes) (lsp : LSP) (hdecode : decodePDU raw = .ok (.lsp lsp))
      (hlevel : lsp.level = level) (hid : lsp.lspID = id)
      (hvalid : lsp.remainingTime ≠ 0 → lspChecksumValidRaw raw = true)
      (hnewer : newer lsp.sequenceNumber lsp.remainingTime (s.entryAt level id) now = true)
      (hsys : id.nodeID.systemID = s.systemID → lsp.remainingTime = 0) :
      EntryChange op s now level id (some (receivedEntry raw lsp now))
  /-- A purge held for ZeroAgeLifetime is dropped. -/
  | dropped (ex : LspEntry) (t : Int) (hex : s.entryAt level id = some ex)
      (hpurged : ex.purgedAt = some t) (hage : zeroAgeSeconds * second ≤ now - t) :
      EntryChange op s now level id none

section Changes

variable {op : Op} {s s' : IsisServer} {level : Level} {id : LSPID} {now : Int}

theorem Signed.entryAt (h : Signed op s now level id s') (l : Level) (i : LSPID) :
    s'.entryAt l i = s.entryAt l i ∨ (l = level ∧ i = id ∧
      ∃ e, s'.entryAt l i = some e ∧ SignedEntry op s now level id e) := by
  have hstore : ∀ (s₁ : IsisServer) (e : LspEntry), s₁.dbs = s.dbs →
      (s₁.storeAndFlood level id e now).entryAt l i = s.entryAt l i ∨
        (l = level ∧ i = id ∧ (s₁.storeAndFlood level id e now).entryAt l i = some e) := by
    intro s₁ e hdbs
    have hentry : s₁.entryAt l i = s.entryAt l i := by unfold IsisServer.entryAt; rw [hdbs]
    rw [entryAt_storeAndFlood, hentry]
    split
    · rename_i hc
      exact .inr ⟨hc.1, hc.2.1, rfl⟩
    · exact .inl rfl
  cases h with
  | unchanged => exact .inl rfl
  | stored e he =>
    exact (hstore s e rfl).imp_right fun ⟨hl, hi, hentry⟩ => ⟨hl, hi, e, hentry, he⟩
  | held e he _ =>
    exact (hstore (s.holdDown level id now) e rfl).imp_right
      fun ⟨hl, hi, hentry⟩ => ⟨hl, hi, e, hentry, he⟩

theorem dbs_installLSP (s : IsisServer) (c : Circuit) (raw : Bytes) (lsp : LSP) (now : Int) :
    (s.installLSP c raw lsp now).dbs =
      (s.putEntry lsp.level lsp.lspID (receivedEntry raw lsp now)).dbs := by
  unfold installLSP
  simp only
  split <;> rfl

theorem installLSP_entryAt {c : Circuit} {raw : Bytes} {lsp : LSP} {l : Level} {i : LSPID} :
    (s.installLSP c raw lsp now).entryAt l i =
      if l = lsp.level ∧ i = lsp.lspID ∧ (s.dbs lsp.level).isSome then
        some (receivedEntry raw lsp now)
      else s.entryAt l i := by
  unfold installLSP
  simp only [entryAt_onCircuit, entryAt_floodLSP]
  split <;> exact entryAt_putEntry

theorem changeEnvironment_entryAt (env : Environment) (l : Level) (i : LSPID) :
    (s.changeEnvironment env).entryAt l i = s.entryAt l i := by
  unfold changeEnvironment entryAt
  simp only
  split
  · rename_i h
    rw [Option.isNone_iff_eq_none.mp h.2]
    rfl
  · rfl

/-- **What one operation can do to one entry**: nothing, or one of the changes of `EntryChange`. -/
theorem exec_change (op : Op) (s : IsisServer) (now : Int) (l : Level) (i : LSPID) :
    (op.exec now s).entryAt l i = s.entryAt l i ∨
      EntryChange op s now l i ((op.exec now s).entryAt l i) := by
  have hout := exec_outcome op s now
  generalize op.exec now s = s' at hout
  cases hout with
  | unchanged => exact .inl rfl
  | signed level id _ hsigns h =>
    rcases h.entryAt l i with heq | ⟨rfl, rfl, e, he, hsigned⟩
    · exact .inl heq
    · exact .inr (by rw [he]; exact .signed e hsigns hsigned)
  | flagged => exact .inl rfl
  | installed cn raw jitter lsp c _ hdecode _ hvalid hnewer hsys =>
    rw [installLSP_entryAt]
    split
    · rename_i hc
      obtain ⟨rfl, rfl, -⟩ := hc
      exact .inr (.received raw lsp hdecode rfl rfl hvalid hnewer hsys)
    · exact .inl rfl
  | dropped level id ex t hex hpurged hage =>
    rw [entryAt_markDirty, entryAt_deleteEntry]
    split
    · rename_i hc
      obtain ⟨rfl, rfl⟩ := hc
      exact .inr (.dropped ex t hex hpurged hage)
    · exact .inl rfl
  | released => exact .inl rfl
  | environment env _ => exact .inl (changeEnvironment_entryAt env l i)

/-! ## What an operation can do beside the database -/

theorem installLSP_frame {c : Circuit} {raw : Bytes} {lsp : LSP} :
    (s.installLSP c raw lsp now).systemID = s.systemID ∧
      (s.installLSP c raw lsp now).authKeys = s.authKeys ∧
      (s.installLSP c raw lsp now).seqWrapUntil = s.seqWrapUntil := by
  unfold installLSP
  simp only
  split <;> exact ⟨rfl, rfl, rfl⟩

/-- **Who a server is never changes**. -/
theorem exec_config (op : Op) (s : IsisServer) (now : Int) :
    (op.exec now s).systemID = s.systemID ∧ (op.exec now s).authKeys = s.authKeys := by
  have hout := exec_outcome op s now
  generalize op.exec now s = s' at hout
  cases hout with
  | unchanged | flagged | dropped | released | environment => exact ⟨rfl, rfl⟩
  | signed level id _ _ h => cases h <;> exact ⟨rfl, rfl⟩
  | installed => exact ⟨installLSP_frame.1, installLSP_frame.2.1⟩

/-- **What one operation can do to one hold-down**: nothing, release it once it ran out, or set it
from now together with a purge under the ID. -/
theorem exec_hold (op : Op) (s : IsisServer) (now : Int) (l : Level) (i : LSPID) :
    (op.exec now s).seqWrapUntil.lookup (l, i) = s.seqWrapUntil.lookup (l, i) ∨
      (∃ u, s.seqWrapUntil.lookup (l, i) = some u ∧ u ≤ now ∧
        (op.exec now s).seqWrapUntil.lookup (l, i) = none) ∨
      ((op.exec now s).seqWrapUntil.lookup (l, i) = some (now + seqWrapHold) ∧
        ∀ e, (op.exec now s).entryAt l i = some e → e.purgedAt = some now) := by
  have hout := exec_outcome op s now
  generalize op.exec now s = s' at hout
  cases hout with
  | unchanged | flagged | dropped | environment => exact .inl rfl
  | installed => exact .inl (by rw [installLSP_frame.2.2])
  | signed level id _ _ h =>
    cases h with
    | unchanged => exact .inl rfl
    | stored => exact .inl rfl
    | held e _ hpurge =>
      have hlook := s.seqWrapUntil.lookup_insert_ite (level, id) (l, i) (now + seqWrapHold)
      by_cases hk : (l, i) = (level, id)
      · rw [if_pos hk] at hlook
        refine .inr (.inr ⟨hlook, fun e' he' => ?_⟩)
        obtain ⟨rfl, rfl⟩ := Prod.mk.inj hk
        rw [entryAt_storeAndFlood] at he'
        split at he'
        · cases he'
          exact hpurge
        · rename_i hdb
          exact absurd ⟨rfl, rfl, dbs_isSome_of_entryAt he'⟩ hdb
      · rw [if_neg hk] at hlook
        exact .inl hlook
  | released level id u hu hrun =>
    by_cases hk : (l, i) = (level, id)
    · exact .inr (.inl ⟨u, by rw [hk, hu], hrun, by rw [Map.lookup_erase_ite, if_pos hk]⟩)
    · exact .inl (by rw [Map.lookup_erase_ite, if_neg hk])

end Changes

/-! ## A first origination -/

/-- A Level 1 server on one point-to-point circuit. The HMAC answers every message with the
HMAC-MD5 of the one message the first origination signs under the key `01`. -/
def oneCircuit (key : Bytes) : Options where
  hmac := fun _ _ _ => [74, 70, 20, 157, 170, 97, 232, 44, 247, 11, 18, 82, 248, 51, 63, 92]
  systemID := octets6 0 0 0 0 0 1
  circuits := [ethernet "eth0" true 10]
  areaAuth := { algo := .md5, key := key }

/-- The server of `oneCircuit` before it does anything. -/
def fresh (key : Bytes) : IsisServer :=
  (newIsisServer (oneCircuit key)).getD (blank (oneCircuit key))

/-- The origination of an empty node LSP. -/
def firstLSP : Op := .originate .level1 0 0 [] false false 0

/-- The ID of that LSP. -/
def firstID : LSPID := ⟨⟨octets6 0 0 0 0 0 1, 0⟩, 0⟩

theorem newIsisServer_oneCircuit (key : Bytes) :
    newIsisServer (oneCircuit key) = some (fresh key) := rfl

/-- What the first origination stores without a key. -/
def plainEntry : LspEntry where
  lsp := { level := .level1, remainingTime := 1200, lspID := firstID, sequenceNumber := 1,
           checksum := 0xf606, isType := 1, tlvs := [] }
  raw := [131, 27, 1, 0, 18, 1, 0, 0, 0, 27, 4, 176, 0, 0, 0, 0, 0, 1, 0, 0, 0, 0, 0, 1, 0xf6,
    0x06, 1]
  inserted := 0
  lifetime := 1200
  own := true
  purgedAt := none
  refreshAt := 900 * second

theorem entryAt_plain : (firstLSP.exec 0 (fresh [])).entryAt .level1 firstID = some plainEntry := by
  decide

end Goisis.Server
