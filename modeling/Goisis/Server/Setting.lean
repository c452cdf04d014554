import Goisis.Server.Loop

/-!
# What the update process leaves alone

Originating, flooding and ageing change flags, entries, hold-downs and the two pending marks. The
footing of a server is the rest; of the marks, that of a recomputation is never taken back. One
lemma for each function of the update process says so (`Updated`), and what is read off the footing
is then the same before and after. A synchronization also writes the hold-down of its circuit and
level; the setting is the footing without those.

* `updated_op` — what an operation on the database does;
* `Upkeep` — what the node does between two events: such work, its End.X SIDs and its timers.
-/

namespace Goisis.Server

open Lib Packet IsisServer

variable {level : Level} {now : Int} {c d : Circuit} {cn : String} {f : Circuit → Circuit}

/-! ## Flags -/

namespace Circuit

variable {db : LSPID → Option LspEntry}

/-- One flooding flag is set or cleared. -/
inductive FlagStep (c : Circuit) : Circuit → Prop where
  | setSRM (l : Level) (id : LSPID) (t : Int) : FlagStep c (c.setSRM l id t)
  | clearSRM (l : Level) (id : LSPID) : FlagStep c (c.clearSRM l id)
  | setSSN (l : Level) (id : LSPID) : FlagStep c (c.setSSN l id)
  | clearSSN (l : Level) (id : LSPID) : FlagStep c (c.clearSSN l id)
  | setSSNAck (l : Level) (e : LSPEntry) : FlagStep c (c.setSSNAck l e)

/-- Any number of flags are. -/
def Reflagged : Circuit → Circuit → Prop := Relation.ReflTransGen FlagStep

variable {e : Circuit}

theorem Reflagged.refl (c : Circuit) : c.Reflagged c := Relation.ReflTransGen.refl

theorem Reflagged.trans (h : c.Reflagged d) (h' : d.Reflagged e) : c.Reflagged e :=
  Relation.ReflTransGen.trans h h'

theorem FlagStep.reflagged (h : c.FlagStep d) : c.Reflagged d := Relation.ReflTransGen.single h

/-- Flags are all that changes. -/
theorem Reflagged.unflagged (h : c.Reflagged d) : d.unflagged = c.unflagged := by
  induction h with
  | refl => rfl
  | tail _ hstep ih =>
    rw [← ih]
    cases hstep with
    | setSRM | clearSRM => exact unflagged_srm _ _ _
    | setSSN | clearSSN => rfl
    | setSSNAck l x =>
      unfold setSSNAck
      split <;> rfl

theorem reflagged_foldl {E : Type} {f : Circuit → E → Circuit} (hf : ∀ c e, Reflagged c (f c e))
    (es : List E) (c : Circuit) : c.Reflagged (es.foldl f c) := by
  induction es generalizing c with
  | nil => exact .refl c
  | cons e es ih => exact (hf c e).trans (ih _)

theorem reflagged_csnpListed (c : Circuit) (e : LSPEntry) :
    c.Reflagged (csnpListed db level now c e) := by
  unfold csnpListed
  split
  · exact (FlagStep.setSSN level e.lspID).reflagged
  split
  · exact (FlagStep.setSSN level e.lspID).reflagged
  split
  · exact (FlagStep.setSRM level e.lspID now).reflagged
  split
  · exact (FlagStep.setSRM level e.lspID now).reflagged
  · exact (FlagStep.clearSRM level e.lspID).reflagged

theorem reflagged_csnpCircuit (db : LSDB) (csnp : CSNP) (now : Int) (c : Circuit) :
    c.Reflagged (csnpCircuit db csnp now c) := by
  refine (reflagged_foldl reflagged_csnpListed _ c).trans (reflagged_foldl (fun c id => ?_) _ _)
  split
  · exact (FlagStep.setSRM csnp.level id now).reflagged
  · exact .refl c

theorem reflagged_psnpListed (c : Circuit) (e : LSPEntry) :
    c.Reflagged (psnpListed db level now c e) := by
  unfold psnpListed
  split
  · exact .refl c
  split
  · split
    · exact (FlagStep.clearSRM level e.lspID).reflagged
    · exact .refl c
  · split
    · exact (FlagStep.setSRM level e.lspID now).reflagged
    · exact .refl c

theorem reflagged_transmitLoop (takes : LSPID → Bool) (order : List LSPID) (n : Nat) (c : Circuit) :
    c.Reflagged (transmitLoop db level now takes order n c).1 := by
  induction order generalizing n c with
  | nil => exact .refl c
  | cons i order ih =>
    have hclear : c.Reflagged (c.clearSRM level i) := (FlagStep.clearSRM level i).reflagged
    simp only [transmitLoop]
    split
    · exact .refl c
    split
    · exact ih n c
    split
    · exact ih n c
    split
    · exact hclear.trans (ih n _)
    split
    · exact hclear.trans (ih n _)
    split
    · exact ih (n + 1) c
    refine Reflagged.trans ?_ (ih (n + 1) _)
    split
    · exact (FlagStep.setSRM level i _).reflagged
    · exact hclear

theorem reflagged_setSRMs (level : Level) (now : Int) (ids : List LSPID) (c : Circuit) :
    c.Reflagged (ids.foldl (fun c id => c.setSRM level id now) c) :=
  reflagged_foldl (fun _ id => (FlagStep.setSRM level id now).reflagged) ids c

end Circuit

/-! ## The footing and the setting -/

/-- A circuit without its flooding flags and its synchronization state. -/
def Circuit.standing (c : Circuit) : Circuit :=
  { c with
    srm := fun l => (c.srm l).map fun _ => ∅
    ssn := fun _ => none
    ssnAck := fun _ => none
    syncHold := fun _ => none
    syncDeferred := fun _ => false }

theorem Circuit.srm_twice (c : Circuit) :
    (fun l => ((c.srm l).map fun _ => (∅ : Map LSPID Int)).map fun _ => (∅ : Map LSPID Int)) =
      fun l => (c.srm l).map fun _ => ∅ := by
  funext l
  rw [Option.map_map]
  rfl

theorem Circuit.standing_unflagged (c : Circuit) : c.unflagged.standing = c.standing :=
  congrArg (fun srm => { c.standing with srm := srm }) c.srm_twice

theorem Circuit.standing_eq_of_unflagged (h : c.unflagged = d.unflagged) :
    c.standing = d.standing := by
  rw [← standing_unflagged c, h, standing_unflagged d]

/-- An operation of the update process, and no change around it. -/
def Op.updates : Op → Bool
  | .environment _ => false
  | _ => true

namespace IsisServer

/-- What originating, flooding and ageing leave alone. -/
def footing (s : IsisServer) : IsisServer :=
  { s with
    circuits := s.circuits.map (·.unflagged)
    dbs := fun l => (s.dbs l).map fun _ => ∅
    seqWrapUntil := ∅
    spfDirty := false
    lspGenPending := false }

/-- What the update process leaves alone. -/
def setting (s : IsisServer) : IsisServer :=
  { s with
    circuits := s.circuits.map (·.standing)
    dbs := fun l => (s.dbs l).map fun _ => ∅
    seqWrapUntil := ∅
    spfDirty := false
    lspGenPending := false }

/-- Originating, flooding or ageing: the footing stays, and the mark of a recomputation with it. -/
structure Updated (s t : IsisServer) : Prop where
  footing : t.footing = s.footing
  dirty : s.spfDirty = true → t.spfDirty = true

variable {s t u : IsisServer} {id : LSPID} {e : LspEntry} {force : Bool}
  {jitter : Level → LSPID → Int} {pn : UInt8} {frame : Frame} {j : Int}

/-- What is read off the setting is the same on servers with the same setting. -/
theorem setting_congr {α : Type} (f : IsisServer → α) (hf : ∀ x, f x.setting = f x)
    (h : t.setting = s.setting) : f t = f s := by
  rw [← hf t, h, hf s]

theorem setting_of_footing (h : t.footing = s.footing) : t.setting = s.setting := by
  have hstanding (x : IsisServer) : x.footing.setting = x.setting := by
    have hcircuits : x.footing.circuits.map (·.standing) = x.circuits.map (·.standing) := by
      simp only [footing, List.map_map]
      exact List.map_congr_left fun c _ => c.standing_unflagged
    have hdbs : (fun l => (x.footing.dbs l).map fun _ => (∅ : LSDB)) =
        fun l => (x.dbs l).map fun _ => ∅ := by
      funext l
      simp only [footing, Option.map_map]
      rfl
    unfold setting
    rw [hcircuits, hdbs]
    rfl
  rw [← hstanding t, h, hstanding s]

theorem circuits_of_footing (h : t.footing = s.footing) :
    t.circuits.map (·.unflagged) = s.circuits.map (·.unflagged) := congrArg circuits h

theorem setting_onCircuit (hf : ∀ c ∈ s.circuits, c.cfg.name = cn → (f c).standing = c.standing) :
    (s.onCircuit cn f).setting = s.setting :=
  congrArg (fun cs => { s.setting with circuits := cs }) (map_onCircuit hf)

/-! ## Operations -/

theorem Updated.refl (s : IsisServer) : s.Updated s := ⟨rfl, fun h => h⟩

theorem Updated.trans (h : s.Updated t) (h' : t.Updated u) : s.Updated u :=
  ⟨h'.footing.trans h.footing, fun hs => h'.dirty (h.dirty hs)⟩

theorem updated_foldl {E : Type} {f : IsisServer → E → IsisServer}
    (hf : ∀ (s : IsisServer) (e : E), s.Updated (f s e)) (es : List E) (s : IsisServer) :
    s.Updated (es.foldl f s) :=
  List.foldlRecOn es f (.refl s) fun t ht e _ => ht.trans (hf t e)

theorem updated_onCircuit (hf : ∀ c ∈ s.circuits, c.cfg.name = cn → (f c).unflagged = c.unflagged) :
    s.Updated (s.onCircuit cn f) :=
  ⟨congrArg (fun cs => { s.footing with circuits := cs }) (map_onCircuit hf), fun h => h⟩

theorem updated_floodLSP (x : Option String) : s.Updated (s.floodLSP level id x now) := by
  have hflood : ∀ c : Circuit, (floodOn level id now c).unflagged = c.unflagged := by
    intro c
    unfold floodOn
    split
    · exact c.unflagged_srm level _
    · rfl
  have hcircuits : (s.floodLSP level id x now).circuits.map (·.unflagged) =
      s.circuits.map (·.unflagged) := by
    simp only [floodLSP, List.map_map]
    congr 1
    funext c
    simp only [Function.comp_apply]
    split
    · rfl
    · exact hflood c
  exact ⟨congrArg (fun cs => { s.footing with circuits := cs }) hcircuits, fun h => h⟩

/-- An entry is stored and a recomputation marked. -/
theorem updated_putEntry : s.Updated (s.putEntry level id e).markDirty :=
  ⟨congrArg (fun dbs => { s.footing with dbs := dbs }) onLevel_presence, fun _ => rfl⟩

theorem updated_storeAndFlood : s.Updated (s.storeAndFlood level id e now) :=
  updated_putEntry.trans (updated_floodLSP none)

theorem updated_installLSP (c : Circuit) (raw : Bytes) (lsp : LSP) :
    s.Updated (s.installLSP c raw lsp now) := by
  have harrival : ∀ d : Circuit, (arrival lsp.level lsp.lspID d).unflagged = d.unflagged := by
    intro d
    unfold arrival
    split
    · exact d.unflagged_srm _ _
    · exact d.unflagged_srm _ _
  refine Updated.trans ?_ ((updated_floodLSP _).trans (updated_onCircuit fun d _ _ => harrival d))
  split
  · exact updated_putEntry.trans ⟨rfl, fun _ => rfl⟩
  · exact updated_putEntry

/-- **An operation on the database** leaves the footing alone. -/
theorem updated_op (op : Op) (hop : op.updates = true) : s.Updated (op.exec now s) := by
  have hout := exec_outcome op s now
  generalize op.exec now s = t at hout
  cases hout with
  | unchanged => exact .refl s
  | signed level id t _ hsigned =>
    cases hsigned with
    | unchanged => exact .refl s
    | stored => exact updated_storeAndFlood
    | held =>
      have hheld : s.Updated (s.holdDown level id now) := ⟨rfl, fun h => h⟩
      exact hheld.trans updated_storeAndFlood
  | flagged _ _ _ _ _ _ hflags => exact updated_onCircuit fun c _ _ => hflags c
  | installed cn raw jitter lsp c => exact updated_installLSP c raw lsp
  | dropped =>
    exact ⟨congrArg (fun dbs => { s.footing with dbs := dbs }) onLevel_presence, fun _ => rfl⟩
  | released => exact ⟨rfl, fun h => h⟩
  | environment env henv => rw [henv] at hop; cases hop

/-! ## Originating -/

theorem updated_purgeStaleFragments (keep : Nat) :
    s.Updated (s.purgeStaleFragments level pn keep now) := by
  unfold purgeStaleFragments
  split
  · exact .refl s
  refine updated_foldl (fun s id => ?_) _ s
  unfold purgeStale
  split
  · exact updated_op (.purge level id) rfl
  · exact .refl s

theorem updated_originateFragmented (fixed vars : List TLV) (att : Bool) :
    s.Updated (s.originateFragmented level pn fixed vars att force now jitter) := by
  refine Updated.trans (updated_foldl (fun s x => ?_) _ s) (updated_purgeStaleFragments _)
  exact updated_op (.originate level pn (UInt8.ofNat x.2) x.1 (att && x.2 == 0) force
    (jitter level (s.ownID pn (UInt8.ofNat x.2)))) rfl

theorem updated_regeneratePseudonodeLSPs :
    s.Updated (s.regeneratePseudonodeLSPs level force now jitter) := by
  refine updated_foldl (fun s c => ?_) _ s
  unfold regeneratePseudonode
  split
  · exact .refl s
  split
  · exact updated_purgeStaleFragments 0
  · exact updated_originateFragmented _ _ _

theorem updated_purgeDeleted (c : Circuit) : s.Updated (NodeServer.purgeDeleted s c now) :=
  (updated_foldl (fun _ _ => updated_purgeStaleFragments 0) _ s).trans
    (updated_foldl (fun _ _ => updated_purgeStaleFragments 0) _ _)

/-! ## Receiving -/

theorem updated_processCSNP (cn : String) (csnp : CSNP) :
    s.Updated (s.processCSNP cn csnp now) := by
  unfold processCSNP
  split
  · exact .refl s
  · exact updated_onCircuit fun c _ _ => (c.reflagged_csnpCircuit _ csnp now).unflagged

theorem updated_processPSNP (cn : String) (psnp : PSNP) :
    s.Updated (s.processPSNP cn psnp now) := by
  unfold processPSNP
  split
  · split
    · exact .refl s
    · refine updated_onCircuit fun c _ _ => (Circuit.reflagged_foldl (fun _ _ => ?_) _ c).unflagged
      exact Circuit.reflagged_psnpListed _ _
  · exact .refl s

/-- **A frame that is no hello** leaves the footing alone. -/
theorem updated_handleRx (cn : String) (frame : Frame) :
    s.Updated (s.handleRx (fun b _ _ => b) false cn frame now j) := by
  have hlsp : s.Updated (s.receive cn (trimToPDULength frame.pdu) now j) :=
    updated_op (.receive cn (trimToPDULength frame.pdu) j) rfl
  unfold handleRx
  split
  · exact .refl s
  rw [if_neg Bool.false_ne_true]
  simp only
  split
  · exact .refl s
  · exact .refl s
  · exact .refl s
  · rename_i lsp hdecode
    simp only [receive, hdecode] at hlsp
    split
    · exact hlsp
    · exact .refl s
  · split
    · exact updated_processCSNP _ _
    · exact .refl s
  · split
    · exact updated_processPSNP _ _
    · exact .refl s

/-! ## Transmitting -/

theorem updated_transmitSRM (cn : String) (order : List LSPID) (takes : LSPID → Bool) :
    s.Updated (s.transmitSRM cn level now order takes).1 := by
  unfold transmitSRM
  split
  · exact .refl s
  split
  · exact .refl s
  · exact updated_onCircuit fun c _ _ => (c.reflagged_transmitLoop takes order 0).unflagged

theorem updated_transmitPSNP (cn : String) (order : List LSPID) :
    s.Updated (s.transmitPSNP cn level now order).1 := by
  unfold transmitPSNP
  split
  · exact .refl s
  simp only
  split
  · exact .refl s
  · refine updated_onCircuit fun c _ _ => (Circuit.reflagged_foldl (fun _ id => ?_) _ c).unflagged
    exact (Circuit.FlagStep.clearSSN level id).reflagged

theorem setting_syncCircuitLevel (cn : String) :
    (s.syncCircuitLevel cn level now).1.setting = s.setting := by
  unfold syncCircuitLevel
  split
  · rfl
  split
  · exact setting_onCircuit fun _ _ _ => rfl
  · refine setting_onCircuit fun c _ _ => ?_
    exact (Circuit.standing_eq_of_unflagged
      (Circuit.reflagged_setSRMs level now _ _).unflagged).trans rfl

theorem setting_floodTransmitAt (send : Sending) (cn : String) :
    (s.floodTransmitAt send now cn level).setting = s.setting := by
  unfold floodTransmitAt
  refine (setting_of_footing
    ((updated_transmitSRM cn _ _).trans (updated_transmitPSNP cn _)).footing).trans ?_
  split
  · exact setting_syncCircuitLevel cn
  · rfl

/-- **A transmission tick** leaves the setting alone. -/
theorem setting_floodTransmit (send : Sending) :
    (s.floodTransmit send now).setting = s.setting := by
  refine foldl_keeps (fun s c => ?_) _ s
  exact foldl_keeps (fun s l => setting_floodTransmitAt send c.cfg.name) _ s

end IsisServer

/-! ## Upkeep -/

namespace NodeServer

/-- One step of what the node does between two events. -/
inductive UpkeepStep (s : NodeServer) : NodeServer → Prop where
  | work (b : IsisServer) (h : s.toIsisServer.Updated b) : UpkeepStep s (s.withBase b)
  | sync (now : Int) : UpkeepStep s (s.syncEndXSIDs now)
  | overload (t : Option Int) : UpkeepStep s (s.withBase { s.toIsisServer with overloadUntil := t })
  | generated (next : Option Int) : UpkeepStep s { s with nextLSPGen := next }

/-- Any number of them. -/
def Upkeep : NodeServer → NodeServer → Prop := Relation.ReflTransGen UpkeepStep

variable {s t u : NodeServer} {b : IsisServer} {force : Bool} {jitter : Level → LSPID → Int}

theorem Upkeep.refl (s : NodeServer) : s.Upkeep s := Relation.ReflTransGen.refl

theorem Upkeep.trans (h : s.Upkeep t) (h' : t.Upkeep u) : s.Upkeep u :=
  Relation.ReflTransGen.trans h h'

theorem upkeep_withBase (h : s.toIsisServer.Updated b) : s.Upkeep (s.withBase b) :=
  .single (.work b h)

/-- What upkeep leaves alone is what its steps leave alone. -/
theorem Upkeep.congr {α : Type} (h : s.Upkeep t) (f : NodeServer → α)
    (hf : ∀ {x y : NodeServer}, x.UpkeepStep y → f y = f x) : f t = f s := by
  induction h with
  | refl => rfl
  | tail _ hstep ih => exact (hf hstep).trans ih

/-- **A regeneration** is upkeep. -/
theorem upkeep_regenerateLSPs : s.Upkeep (s.regenerateLSPs force now jitter) :=
  List.foldlRecOn (motive := fun t : NodeServer => s.Upkeep t) _ _ (.single (.sync now))
    fun _ ht _ _ => ht.trans (upkeep_withBase
      ((updated_originateFragmented _ _ _).trans updated_regeneratePseudonodeLSPs))

theorem upkeep_drainLSPGen : s.Upkeep (s.drainLSPGen now jitter) := by
  unfold drainLSPGen
  split
  · exact .refl s
  have hpending : s.Upkeep (s.withBase { s.toIsisServer with lspGenPending := false }) :=
    upkeep_withBase ⟨rfl, fun h => h⟩
  exact (hpending.trans upkeep_regenerateLSPs).trans (.single (.generated _))

/-- What a tick does between the expiry and the transmission. -/
theorem upkeep_tick (ht : (s.clearStartupOverload now jitter).drainLSPGen now jitter = t) :
    s.Upkeep ((t.withBase (t.ageLSPs now)).refreshOwnLSPs now jitter) := by
  have hclear : s.Upkeep (s.clearStartupOverload now jitter) := by
    unfold clearStartupOverload
    split
    · exact Upkeep.trans (.single (.overload none)) upkeep_regenerateLSPs
    · exact .refl s
  have hage (x : NodeServer) : x.Upkeep (x.withBase (x.ageLSPs now)) :=
    upkeep_withBase (updated_foldl (fun _ l => updated_foldl
      (fun _ id => updated_op (.age l id) rfl) _ _) _ _)
  have hrelease (x : NodeServer) : x.Upkeep (x.releaseOwnLSPs now jitter) := by
    unfold releaseOwnLSPs
    split
    · refine Upkeep.trans (upkeep_withBase ?_) upkeep_regenerateLSPs
      exact updated_foldl (fun _ (k : Level × LSPID) =>
        updated_op (.release k.1 k.2) rfl) _ _
    · exact .refl x
  have hrefresh (x : NodeServer) : x.Upkeep (x.refreshOwnLSPs now jitter) := by
    unfold refreshOwnLSPs
    simp only
    split
    · exact (hrelease x).trans upkeep_regenerateLSPs
    · exact hrelease x
  exact ht ▸ ((hclear.trans upkeep_drainLSPGen).trans (hage _)).trans (hrefresh _)

end NodeServer

end Goisis.Server
