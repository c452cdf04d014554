import Goisis.Server.SnpOrder
import Goisis.Server.WireImage

/-!
# Reliable flooding over a point-to-point link

Two servers joined by one point-to-point circuit, as a transition system. Either side may take any
operation of its own (`Op`), transmit (`transmitSRM`, `transmitPSNP`, `sendCSNP`,
`syncCircuitLevel`) and take delivery of anything the other side ever sent: a message is never
removed from the link, so losses, duplications and reorderings are all there. Sequence numbers PDUs
travel as PDUs, LSPs as bytes.

What is to be shown is the meaning of a clear SRM flag: the other side has the LSP. Each side's past
is kept with it (`pastA`, `pastB`), so "has held at some point" can be said.

* `LinkInvariant` — what relates one side's flags, the messages in flight to it and the other
  side's past;
* `flooding_safe` — a clear SRM flag means that the neighbour has held a copy at least as new, in
  every run in which no acknowledgement of a live copy meets a purge at the same sequence number;
* `stale_acknowledgement` — without that condition a late acknowledgement takes a purge for
  delivered.
-/

namespace Goisis.Server

open Lib Packet IsisServer List Option Circuit

variable {la lb : String} {level level' : Level} {cleared : LSPID → Prop} {c : Circuit}
  {f : Circuit → Circuit} {s s' : IsisServer} {link : String} {id : LSPID} {cn : String} {now : Int}
  {e : LspEntry} {past : List (Int × IsisServer)}

/-! ## The link -/

/-- A PDU in flight. -/
inductive Message where
  | lsp (raw : Bytes)
  | csnp (p : CSNP)
  | psnp (p : PSNP)

/-- One thing a node does. -/
inductive Act where
  /-- An operation of its own, off the link. -/
  | update (op : Op)
  /-- An LSP delivered on the link. -/
  | lsp (raw : Bytes) (jitter : Int)
  | csnp (cn : String) (p : CSNP)
  | psnp (cn : String) (p : PSNP)
  | transmitSRM (cn : String) (level : Level) (order : List LSPID) (takes : LSPID → Bool)
  | transmitPSNP (cn : String) (level : Level) (order : List LSPID)
  | sendCSNP (cn : String) (level : Level)
  | sync (cn : String) (level : Level)

/-- What is sent on another circuit does not reach the neighbour. -/
def onLink (link cn : String) (sent : List Message) : List Message :=
  if cn = link then sent else []

/-- The node after an act, and what it put on the link. -/
def Act.run (act : Act) (link : String) (now : Int) (s : IsisServer) : IsisServer × List Message :=
  match act with
  | .update op => (op.exec now s, [])
  | .lsp raw jitter => (s.receive link raw now jitter, [])
  | .csnp cn p => (s.processCSNP cn p now, [])
  | .psnp cn p => (s.processPSNP cn p now, [])
  | .transmitSRM cn level order takes =>
    let r := s.transmitSRM cn level now order takes
    (r.1, onLink link cn (r.2.map .lsp))
  | .transmitPSNP cn level order =>
    let r := s.transmitPSNP cn level now order
    (r.1, onLink link cn (r.2.map .psnp))
  | .sendCSNP cn level =>
    match s.circuitNamed cn with
    | none => (s, [])
    | some c => (s, onLink link cn ((s.sendCSNP c level now).map .csnp))
  | .sync cn level =>
    let r := s.syncCircuitLevel cn level now
    (r.1, onLink link cn (r.2.map .csnp))

/-- What a node may do: on the link it receives only what was sent, its own operations leave the
link alone, and no LSP it transmits there exceeds the circuit's MTU. -/
def Act.Allowed (act : Act) (link : String) (now : Int) (inbox : List Message) (s : IsisServer) :
    Prop :=
  match act with
  | .update (.receive cn _ _) => cn ≠ link
  | .update (.environment env) =>
    (s.changeEnvironment env).circuitNamed link = s.circuitNamed link
  | .update _ => True
  | .lsp raw _ => .lsp raw ∈ inbox
  | .csnp cn p => cn = link → .csnp p ∈ inbox
  | .psnp cn p => cn = link → .psnp p ∈ inbox
  | .transmitSRM cn level _ _ => cn = link → ∀ c, s.circuitNamed link = some c →
      ∀ id e, s.entryAt level id = some e → ((e.wire now).length : Int) ≤ c.cfg.mtu - 3
  | .transmitPSNP _ _ _ => True
  | .sendCSNP _ _ => True
  | .sync _ _ => True

/-- The two nodes, what is in flight to each, and the past of each. -/
structure Link where
  now : Int
  a : IsisServer
  b : IsisServer
  toA : List Message
  toB : List Message
  pastA : List (Int × IsisServer)
  pastB : List (Int × IsisServer)

/-- `a` acts. -/
def Link.left (w : Link) (la : String) (act : Act) : Link :=
  { w with
    a := (act.run la w.now w.a).1
    toB := (act.run la w.now w.a).2 ++ w.toB
    pastA := (w.now, (act.run la w.now w.a).1) :: w.pastA }

/-- `b` acts. -/
def Link.right (w : Link) (lb : String) (act : Act) : Link :=
  { w with
    b := (act.run lb w.now w.b).1
    toA := (act.run lb w.now w.b).2 ++ w.toA
    pastB := (w.now, (act.run lb w.now w.b).1) :: w.pastB }

/-- One step: time passes, or one side acts. `ok` restricts the acts of `a` further. -/
inductive LinkStep (la lb : String) (ok : String → Int → IsisServer → Act → Prop) (w : Link) :
    Link → Prop where
  | tick (t : Int) (hle : w.now ≤ t) :
      LinkStep la lb ok w
        { w with now := t, pastA := (t, w.a) :: w.pastA, pastB := (t, w.b) :: w.pastB }
  | left (act : Act) (hallowed : act.Allowed la w.now w.toA w.a) (hok : ok la w.now w.a act) :
      LinkStep la lb ok w (w.left la act)
  | right (act : Act) (hallowed : act.Allowed lb w.now w.toB w.b) :
      LinkStep la lb ok w (w.right lb act)

/-- A reachable server whose end of the link is point-to-point, Up at the level, and free to
synchronize. -/
structure ReadyToSync (s : IsisServer) (link : String) (level : Level) (now : Int) : Prop where
  reachable : ∃ o t, Reachable o (t, s)
  circuit : ∃ c, s.circuitNamed link = some c ∧ c.cfg.p2p = true ∧ (c.srm level).isSome = true ∧
    c.floodReady level = true ∧ ∀ t, c.syncHold level = some t → t ≤ now

/-- The moment `syncCircuitLevel` has run on both sides. -/
structure Start (la lb : String) (level : Level) (w : Link) : Prop where
  sides : ∃ a₀ b₀, ReadyToSync a₀ la level w.now ∧ ReadyToSync b₀ lb level w.now ∧
    w.a = (a₀.syncCircuitLevel la level w.now).1 ∧ w.b = (b₀.syncCircuitLevel lb level w.now).1 ∧
    w.toB = (a₀.syncCircuitLevel la level w.now).2.map .csnp ∧
    w.toA = (b₀.syncCircuitLevel lb level w.now).2.map .csnp
  pastA : w.pastA = [(w.now, w.a)]
  pastB : w.pastB = [(w.now, w.b)]

/-- The worlds reached from the start by steps in which `a` meets `ok`. -/
def LinkReaches (la lb : String) (ok : String → Int → IsisServer → Act → Prop) (level : Level)
    (w : Link) : Prop :=
  ∃ w₀, Start la lb level w₀ ∧ Relation.ReflTransGen (LinkStep la lb ok) w₀ w

variable {w' : Link}

section Reaches

variable {ok : String → Int → IsisServer → Act → Prop} {w : Link}

theorem LinkReaches.step (h : LinkReaches la lb ok level w) (hstep : LinkStep la lb ok w w') :
    LinkReaches la lb ok level w' := by
  obtain ⟨w₀, hstart, hsteps⟩ := h
  exact ⟨w₀, hstart, hsteps.tail hstep⟩

theorem LinkReaches.weaken {ok' : String → Int → IsisServer → Act → Prop}
    (h : LinkReaches la lb ok level w)
    (himp : ∀ link now s act, ok link now s act → ok' link now s act) :
    LinkReaches la lb ok' level w := by
  obtain ⟨w₀, hstart, hsteps⟩ := h
  refine ⟨w₀, hstart, Relation.ReflTransGen.mono (fun x y hxy => ?_) _ _ hsteps⟩
  cases hxy with
  | tick t hle => exact .tick t hle
  | left act hallowed hok => exact .left act hallowed (himp _ _ _ _ hok)
  | right act hallowed => exact .right act hallowed

end Reaches

/-! ## At least as new -/

/-- A copy at `seq`, a purge or not, is at least as new as the stored entry. -/
def AtLeastAsNew (seq : UInt32) (purge : Prop) (e : LspEntry) : Prop :=
  e.lsp.sequenceNumber < seq ∨ (e.lsp.sequenceNumber = seq ∧ (e.purgedAt.isSome = true → purge))

/-- At some point of its past the neighbour held a copy at least as new, or had the purge of an LSP
it does not hold to answer for. -/
def Covered (past : List (Int × IsisServer)) (link : String) (level : Level) (id : LSPID)
    (e : LspEntry) : Prop :=
  ∃ p ∈ past, (∃ e', p.2.entryAt level id = some e' ∧
        AtLeastAsNew e'.lsp.sequenceNumber (e'.remaining p.1 = 0) e) ∨
      ∃ c i ack, p.2.circuitNamed link = some c ∧ c.ssnAckAt level i = some ack ∧ ack.lspID = id ∧
        AtLeastAsNew ack.sequenceNumber (ack.remainingTime = 0) e

/-- The step condition: no acknowledgement on the link meets a stored copy at its sequence number
that it does not stand for, be it a purge against a live copy or a request (sequence number 0). -/
def AcksInOrder (link : String) (_now : Int) (s : IsisServer) (act : Act) : Prop :=
  match act with
  | .csnp cn p => cn = link → ∀ x ∈ listedEntries p.tlvs, ∀ loc,
      s.entryAt p.level x.lspID = some loc → loc.lsp.sequenceNumber = x.sequenceNumber →
      loc.purgedAt.isSome = true → x.remainingTime = 0
  | .psnp cn p => cn = link → ∀ x ∈ listedEntries p.tlvs, ∀ loc,
      s.entryAt p.level x.lspID = some loc → loc.lsp.sequenceNumber = x.sequenceNumber →
      1 ≤ x.sequenceNumber ∧ (loc.purgedAt.isSome = true → x.remainingTime = 0)
  | _ => True

/-- The acts of an unrestricted run. -/
def AnyAct : String → Int → IsisServer → Act → Prop := fun _ _ _ _ => True

/-! ## The link seen from one node -/

/-- The node's end of the link exists, is point-to-point and has flags at the level. -/
def LinkUp (s : IsisServer) (link : String) (level : Level) : Prop :=
  ∃ c, s.circuitNamed link = some c ∧ c.cfg.p2p = true ∧ (c.srm level).isSome = true

/-- SRM is set for an LSP on the link. -/
def SrmSet (s : IsisServer) (link : String) (level : Level) (id : LSPID) : Prop :=
  ∃ c, s.circuitNamed link = some c ∧ (c.srmAt level id).isSome = true

/-- The circuit keeps its configuration and, at `level`, its map and every SRM flag not in
`cleared`. -/
def CircuitKept (c c' : Circuit) (level : Level) (cleared : LSPID → Prop) : Prop :=
  c'.cfg = c.cfg ∧ (c'.srm level).isSome = (c.srm level).isSome ∧
    ∀ id, (c.srmAt level id).isSome = true → (c'.srmAt level id).isSome = true ∨ cleared id

theorem CircuitKept.refl (c : Circuit) (level : Level) (cleared : LSPID → Prop) :
    CircuitKept c c level cleared :=
  ⟨rfl, rfl, fun _ hset => .inl hset⟩

theorem CircuitKept.trans {c₁ c₂ c₃ : Circuit} (h : CircuitKept c₁ c₂ level cleared)
    (h' : CircuitKept c₂ c₃ level cleared) : CircuitKept c₁ c₃ level cleared := by
  refine ⟨h'.1.trans h.1, h'.2.1.trans h.2.1, fun id hset => ?_⟩
  rcases h.2.2 id hset with hset₂ | hcl
  · exact h'.2.2 id hset₂
  · exact .inr hcl

theorem CircuitKept.mono {c' : Circuit} {p q : LSPID → Prop} (h : CircuitKept c c' level p)
    (himp : ∀ id, p id → q id) : CircuitKept c c' level q :=
  ⟨h.1, h.2.1, fun id hset => (h.2.2 id hset).imp_right (himp id)⟩

theorem KeepsSRM.circuitKept (hf : KeepsSRM f) (c : Circuit) : CircuitKept c (f c) level cleared :=
  ⟨hf.cfg c, hf.maps c level, fun id hset => .inl (hf.srm c level id hset)⟩

theorem circuitKept_clearSRM (c : Circuit) (i : LSPID) :
    CircuitKept c (c.clearSRM level' i) level fun id => level' = level ∧ i = id := by
  refine ⟨rfl, srm_isSome_clearSRM, fun id hset => ?_⟩
  rw [srmAt_clearSRM]
  by_cases hk : level = level' ∧ id = i
  · exact .inr ⟨hk.1.symm, hk.2.symm⟩
  · exact .inl (by rw [if_neg hk]; exact hset)

/-- What arrives has its own flag cleared, and no other. -/
theorem circuitKept_arrival (l : Level) (i : LSPID) (c : Circuit) :
    CircuitKept c (arrival l i c) level fun id => l = level ∧ i = id := by
  unfold arrival
  split
  · exact circuitKept_clearSRM c i
  · exact circuitKept_clearSRM c i

/-- The node's end of the link stays, and with it every SRM flag not in `cleared`. -/
def LinkKept (s s' : IsisServer) (link : String) (level : Level) (cleared : LSPID → Prop) : Prop :=
  ∀ c, s.circuitNamed link = some c → ∃ c', s'.circuitNamed link = some c' ∧ c'.cfg = c.cfg ∧
    (c'.srm level).isSome = (c.srm level).isSome ∧
    ∀ id, (c.srmAt level id).isSome = true → (c'.srmAt level id).isSome = true ∨ cleared id

theorem LinkKept.linkUp (h : LinkKept s s' link level cleared) (hup : LinkUp s link level) :
    LinkUp s' link level := by
  obtain ⟨c, hc, hp2p, hmap⟩ := hup
  obtain ⟨c', hc', hcfg, hmaps, -⟩ := h c hc
  exact ⟨c', hc', by rw [hcfg]; exact hp2p, by rw [hmaps]; exact hmap⟩

theorem LinkKept.not_srmSet (h : LinkKept s s' link level cleared) (hid : ¬ cleared id)
    (hnot : ¬ SrmSet s' link level id) : ¬ SrmSet s link level id := by
  rintro ⟨c, hc, hset⟩
  obtain ⟨c', hc', -, -, hkeep⟩ := h c hc
  rcases hkeep id hset with hset' | hcl
  · exact hnot ⟨c', hc', hset'⟩
  · exact hid hcl

theorem LinkKept.of_circuitNamed (h : s'.circuitNamed link = s.circuitNamed link) :
    LinkKept s s' link level cleared :=
  fun c hc => ⟨c, by rw [h, hc], rfl, rfl, fun _ hset => .inl hset⟩

theorem LinkKept.mono {p : LSPID → Prop} (h : LinkKept s s' link level p)
    (himp : ∀ id, p id → cleared id) : LinkKept s s' link level cleared := by
  intro c hc
  obtain ⟨c', hc', hkept⟩ := h c hc
  exact ⟨c', hc', CircuitKept.mono hkept himp⟩

/-- A change of circuits, described by what it does to the circuit of the link's name. -/
theorem LinkKept.of_map {g : Circuit → Circuit}
    (h : s'.circuitNamed link = (s.circuitNamed link).map g)
    (hg : ∀ c, CircuitKept c (g c) level cleared) : LinkKept s s' link level cleared :=
  fun c hc => ⟨g c, by rw [h, hc]; rfl, hg c⟩

theorem LinkKept.of_circuitKept (hcfg : ∀ c, (f c).cfg = c.cfg)
    (hf : cn = link → ∀ c, s.circuitNamed link = some c → CircuitKept c (f c) level cleared) :
    LinkKept s (s.onCircuit cn f) link level cleared := by
  intro c hc
  rw [circuitNamed_onCircuit hcfg, hc]
  by_cases hcn : link = cn
  · exact ⟨f c, by simp [hcn], hf hcn.symm c hc⟩
  · exact ⟨c, by simp [hcn], CircuitKept.refl c level cleared⟩

theorem LinkKept.onCircuit (hf : KeepsSRM f) : LinkKept s (s.onCircuit cn f) link level cleared :=
  .of_circuitKept hf.cfg fun _ c _ => hf.circuitKept c

/-- Flooding sets flags only. -/
theorem keepsSRM_floodOn (l : Level) (i : LSPID) (t : Int) : KeepsSRM (floodOn l i t) where
  cfg c := cfg_floodOn c
  maps c l' := by
    unfold floodOn
    split
    · exact (keepsSRM_setSRM l i t).maps c l'
    · rfl
  srm c l' id h := by
    unfold floodOn
    split
    · exact (keepsSRM_setSRM l i t).srm c l' id h
    · exact h

theorem srmAt_floodOn {t : Int} (h : (c.srm level).isSome = true) :
    ((floodOn level id t c).srmAt level id).isSome = true := by
  unfold floodOn
  rw [if_pos h, srmAt_clearSSN, srmAt_setSRM, if_pos ⟨rfl, rfl, h⟩]
  rfl

theorem circuitNamed_storeAndFlood (s : IsisServer) (l : Level) (i : LSPID) (e : LspEntry)
    (now : Int) (n : String) : (s.storeAndFlood l i e now).circuitNamed n =
      (s.circuitNamed n).map (floodOn l i now) :=
  circuitNamed_floodLSP l i none now n

theorem srmSet_storeAndFlood (e : LspEntry) (now : Int) (hup : LinkUp s link level) :
    SrmSet (s.storeAndFlood level id e now) link level id := by
  obtain ⟨c, hc, -, hmap⟩ := hup
  refine ⟨floodOn level id now c, ?_, srmAt_floodOn hmap⟩
  rw [circuitNamed_storeAndFlood, hc]
  rfl

/-! ## Operations and the link -/

/-- After a step, an entry with a clear flag stood there before with a clear flag, or `P` holds of
it. -/
def ClearOr (s s' : IsisServer) (link : String) (level : Level) (P : LSPID → LspEntry → Prop) :
    Prop :=
  LinkUp s' link level ∧ ∀ id e, s'.entryAt level id = some e → ¬ SrmSet s' link level id →
    (s.entryAt level id = some e ∧ ¬ SrmSet s link level id) ∨ P id e

variable {P : LSPID → LspEntry → Prop}

theorem LinkKept.clearOr (h : LinkKept s s' link level cleared) (hup : LinkUp s link level)
    (hold : ∀ id e, s'.entryAt level id = some e → ¬ SrmSet s' link level id →
      (s.entryAt level id = some e ∧ ¬ cleared id) ∨ P id e) : ClearOr s s' link level P :=
  ⟨h.linkUp hup, fun id e he hnot =>
    (hold id e he hnot).imp_left fun ⟨hstood, hid⟩ => ⟨hstood, h.not_srmSet hid hnot⟩⟩

/-- A stored and flooded LSP has its flag on the link. -/
theorem clearOr_storeAndFlood {s₁ : IsisServer}
    (hnamed : s₁.circuitNamed link = s.circuitNamed link)
    (hentries : ∀ id, s₁.entryAt level id = s.entryAt level id) (l : Level) (i : LSPID)
    (e : LspEntry) (hup : LinkUp s link level) :
    ClearOr s (s₁.storeAndFlood l i e now) link level P := by
  have hkept : LinkKept s (s₁.storeAndFlood l i e now) link level fun _ => False := by
    refine .of_map ?_ (keepsSRM_floodOn l i now).circuitKept
    rw [circuitNamed_storeAndFlood, hnamed]
  refine hkept.clearOr hup fun _ e' he' hnot => .inl ⟨?_, id⟩
  rw [entryAt_storeAndFlood] at he'
  split at he'
  · rename_i hk
    obtain ⟨rfl, rfl, -⟩ := hk
    obtain ⟨c, hc, h⟩ := hup
    exact absurd (srmSet_storeAndFlood e now ⟨c, hnamed.trans hc, h⟩) hnot
  · rwa [← hentries]

theorem cfg_arrival (l : Level) (i : LSPID) (c : Circuit) : (arrival l i c).cfg = c.cfg := by
  unfold arrival
  split <;> rfl

theorem circuitNamed_installLSP (s : IsisServer) (c : Circuit) (raw : Bytes) (lsp : LSP) (now : Int)
    (n : String) : (s.installLSP c raw lsp now).circuitNamed n =
      (s.circuitNamed n).map fun x =>
        if n = c.cfg.name then arrival lsp.level lsp.lspID x
        else floodOn lsp.level lsp.lspID now x := by
  unfold installLSP
  rw [circuitNamed_onCircuit (cfg_arrival lsp.level lsp.lspID), circuitNamed_floodLSP]
  have hnamed : ∀ s₁ : IsisServer, s₁.circuits = s.circuits →
      s₁.circuitNamed n = s.circuitNamed n := by
    intro s₁ h
    unfold circuitNamed
    rw [h]
  rw [hnamed _ (by split <;> rfl), Option.map_map]
  congr 1
  funext x
  by_cases hn : n = c.cfg.name
  · simp [hn]
  · simp [hn]

/-- An LSP installed from another circuit is flagged on the link; one installed from the link is the
only entry whose flag may be clear without having stood clear before. -/
theorem clearOr_installLSP (raw : Bytes) (lsp : LSP) (now : Int) (hc : s.circuitNamed cn = some c)
    (hup : LinkUp s link level) : ClearOr s (s.installLSP c raw lsp now) link level fun id e =>
      cn = link ∧ lsp.level = level ∧ lsp.lspID = id ∧ e = receivedEntry raw lsp now := by
  have hname := name_of_circuitNamed hc
  have hcirc := circuitNamed_installLSP s c raw lsp now link
  rw [hname] at hcirc
  -- on the link only the flag of the installed LSP itself can be cleared, and only on arrival
  have hkept : LinkKept s (s.installLSP c raw lsp now) link level
      fun id => cn = link ∧ lsp.level = level ∧ lsp.lspID = id := by
    refine LinkKept.of_map hcirc fun x => ?_
    by_cases hcn : link = cn
    · simp only [if_pos hcn]
      exact (circuitKept_arrival lsp.level lsp.lspID x).mono fun id hk => ⟨hcn.symm, hk⟩
    · simp only [if_neg hcn]
      exact (keepsSRM_floodOn lsp.level lsp.lspID now).circuitKept x
  refine hkept.clearOr hup fun id e he hnot => ?_
  rw [installLSP_entryAt] at he
  by_cases hk : level = lsp.level ∧ id = lsp.lspID ∧ (s.dbs lsp.level).isSome = true
  · rw [if_pos hk] at he
    cases he
    by_cases hcn : cn = link
    · exact .inr ⟨hcn, hk.1.symm, hk.2.1.symm, rfl⟩
    exfalso
    obtain ⟨x, hx, -, hmap⟩ := hup
    obtain ⟨rfl, rfl, -⟩ := hk
    refine hnot ⟨floodOn lsp.level lsp.lspID now x, ?_, srmAt_floodOn hmap⟩
    rw [hcirc, hx]
    simp [Ne.symm hcn]
  · rw [if_neg hk] at he
    refine .inl ⟨he, ?_⟩
    rintro ⟨-, rfl, rfl⟩
    exact hk ⟨rfl, rfl, dbs_isSome_of_entryAt he⟩

/-- **An operation and the link**: after it, an entry whose flag is clear stood there before with a
clear flag, or was just installed from the link. -/
theorem exec_clearOr (op : Op) (now : Int) (hup : LinkUp s link level)
    (henv : ∀ env, op = .environment env →
      (s.changeEnvironment env).circuitNamed link = s.circuitNamed link) :
    ClearOr s (op.exec now s) link level fun id e =>
      ∃ raw jitter lsp, op = .receive link raw jitter ∧ decodePDU raw = .ok (.lsp lsp) ∧
        lsp.level = level ∧ lsp.lspID = id ∧ e = receivedEntry raw lsp now := by
  have hout := exec_outcome op s now
  generalize op.exec now s = s' at hout
  cases hout with
  | unchanged => exact ⟨hup, fun id e he hnot => .inl ⟨he, hnot⟩⟩
  | signed l i _ _ h =>
    cases h with
    | unchanged => exact ⟨hup, fun id e he hnot => .inl ⟨he, hnot⟩⟩
    | stored e' _ => exact clearOr_storeAndFlood rfl (fun _ => rfl) l i e' hup
    | held e' _ _ => exact clearOr_storeAndFlood rfl (fun _ => rfl) l i e' hup
  | flagged cn raw jitter f _ hf _ =>
    have hkept : LinkKept s (s.onCircuit cn f) link level fun _ => False := .onCircuit hf
    exact hkept.clearOr hup fun _ _ he _ => .inl ⟨he, id⟩
  | installed cn raw jitter lsp c hop hdecode hc _ _ _ =>
    obtain ⟨hup', hclear⟩ := clearOr_installLSP raw lsp now hc hup
    refine ⟨hup', fun id e he hnot => (hclear id e he hnot).imp_right ?_⟩
    rintro ⟨rfl, hlevel, hid, heq⟩
    exact ⟨raw, jitter, lsp, hop, hdecode, hlevel, hid, heq⟩
  | dropped l i _ _ _ _ _ =>
    refine ⟨hup, fun id e he hnot => .inl ⟨?_, hnot⟩⟩
    rw [entryAt_markDirty, entryAt_deleteEntry] at he
    split at he
    · cases he
    · exact he
  | released => exact ⟨hup, fun id e he hnot => .inl ⟨he, hnot⟩⟩
  | environment env hop =>
    have hkept : LinkKept s (s.changeEnvironment env) link level fun _ => False :=
      .of_circuitNamed (henv env hop)
    exact hkept.clearOr hup fun i _ he _ => .inl ⟨changeEnvironment_entryAt env level i ▸ he, id⟩

/-! ## Sequence numbers PDUs and transmission -/

section Circuits

variable {db : LSPID → Option LspEntry}

/-- A loop clears only what one of its steps clears. -/
theorem circuitKept_foldl {E : Type} {f : Circuit → E → Circuit} {p : E → LSPID → Prop}
    (hf : ∀ c e, CircuitKept c (f c e) level (p e)) (es : List E) (c : Circuit) :
    CircuitKept c (es.foldl f c) level fun id => ∃ e ∈ es, p e id := by
  induction es generalizing c with
  | nil => exact .refl c level _
  | cons e es ih =>
    refine CircuitKept.trans ((hf c e).mono ?_) ((ih (f c e)).mono ?_)
    · exact fun id hp => ⟨e, mem_cons_self, hp⟩
    · exact fun id ⟨x, hx, hp⟩ => ⟨x, mem_cons_of_mem e hx, hp⟩

/-- A CSNP entry clears the flag of a held copy at its sequence number only. -/
theorem circuitKept_csnpListed (db : LSPID → Option LspEntry) (level level' : Level) (now : Int)
    (c : Circuit) (e : LSPEntry) :
    CircuitKept c (csnpListed db level' now c e) level fun id => level' = level ∧ e.lspID = id ∧
      ∃ loc, db id = some loc ∧ loc.lsp.sequenceNumber = e.sequenceNumber := by
  unfold csnpListed
  cases hdb : db e.lspID with
  | none => exact .refl c level _
  | some loc =>
    simp only
    by_cases hold : newer e.sequenceNumber e.remainingTime (some loc) now = true
    · rw [if_pos hold]
      exact .refl c level _
    rw [if_neg hold]
    split
    · exact (keepsSRM_setSRM _ _ _).circuitKept c
    rename_i hlt
    split
    · exact (keepsSRM_setSRM _ _ _).circuitKept c
    refine (circuitKept_clearSRM c e.lspID).mono fun id hk => ?_
    refine ⟨hk.1, hk.2, loc, by rw [← hk.2]; exact hdb, ?_⟩
    rcases newer_some_eq_false (by simpa using hold) with h | ⟨h, -⟩
    · exact absurd h hlt
    · exact h.symm

/-- A PSNP entry clears the flag of a held copy at or below its sequence number only. -/
theorem circuitKept_psnpListed (db : LSPID → Option LspEntry) (level level' : Level) (now : Int)
    (c : Circuit) (e : LSPEntry) :
    CircuitKept c (psnpListed db level' now c e) level fun id => level' = level ∧ e.lspID = id ∧
      ∃ loc, db id = some loc ∧ loc.lsp.sequenceNumber ≤ e.sequenceNumber := by
  unfold psnpListed
  cases hdb : db e.lspID with
  | none => exact .refl c level _
  | some loc =>
    simp only
    split
    · split
      · rename_i hge
        refine (circuitKept_clearSRM c e.lspID).mono fun id hk => ?_
        exact ⟨hk.1, hk.2, loc, by rw [← hk.2]; exact hdb, hge⟩
      · exact .refl c level _
    · split
      · exact (keepsSRM_setSRM _ _ _).circuitKept c
      · exact .refl c level _

/-- On a point-to-point circuit that every held LSP fits, transmission clears no flag of a held
LSP. -/
theorem transmitLoop_kept (db : LSPID → Option LspEntry) (level level' : Level) (now : Int)
    (takes : LSPID → Bool) (order : List LSPID) (n : Nat) (c : Circuit) (hp2p : c.cfg.p2p = true)
    (hfit : ∀ id e, db id = some e → ((e.wire now).length : Int) ≤ c.cfg.mtu - 3) :
    CircuitKept c (transmitLoop db level' now takes order n c).1 level
      fun id => level' = level ∧ db id = none := by
  induction order generalizing n c with
  | nil => exact .refl c level _
  | cons i order ih =>
    simp only [transmitLoop]
    split
    · exact .refl c level _
    split
    · exact ih n c hp2p hfit
    split
    · exact ih n c hp2p hfit
    cases hdb : db i with
    | none =>
      refine CircuitKept.trans ((circuitKept_clearSRM c i).mono ?_)
        (ih n (c.clearSRM level' i) hp2p hfit)
      rintro id ⟨hl, rfl⟩
      exact ⟨hl, hdb⟩
    | some e =>
      simp only
      rw [if_neg (Int.not_lt.mpr (hfit i e hdb))]
      split
      · exact ih (n + 1) c hp2p hfit
      · exact CircuitKept.trans ((keepsSRM_setSRM level' i _).circuitKept c)
          (ih (n + 1) (c.setSRM level' i (now + minLSPTransmissionInterval)) hp2p hfit)

theorem mem_transmitLoop {takes : LSPID → Bool} {order : List LSPID} {n : Nat} {raw : Bytes}
    (h : raw ∈ (transmitLoop db level' now takes order n c).2) :
    ∃ id e, db id = some e ∧ raw = e.wire now := by
  induction order generalizing n c with
  | nil => cases h
  | cons i order ih =>
    simp only [transmitLoop] at h
    split at h
    · cases h
    split at h
    · exact ih h
    split at h
    · exact ih h
    cases hdb : db i with
    | none =>
      rw [hdb] at h
      exact ih h
    | some e =>
      rw [hdb] at h
      simp only at h
      split at h
      · exact ih h
      split at h
      · exact ih h
      rcases mem_cons.mp h with rfl | h
      · exact ⟨i, e, hdb, rfl⟩
      · exact ih h

end Circuits

/-! ## One act -/

variable {act : Act} {inbox : List Message}

/-- What an act can stand for as an acknowledgement of an entry: an LSP just installed from the
link, or a listed entry at or above its sequence number. -/
def Acknowledged (act : Act) (link : String) (now : Int) (s : IsisServer) (level : Level)
    (id : LSPID) (e : LspEntry) : Prop :=
  match act with
  | .lsp raw _ => ∃ lsp, decodePDU raw = .ok (.lsp lsp) ∧ lsp.level = level ∧ lsp.lspID = id ∧
      e = receivedEntry raw lsp now
  | .csnp cn p => cn = link ∧ p.level = level ∧ s.entryAt level id = some e ∧
      ∃ x ∈ listedEntries p.tlvs, x.lspID = id ∧ e.lsp.sequenceNumber = x.sequenceNumber
  | .psnp cn p => cn = link ∧ p.level = level ∧ s.entryAt level id = some e ∧
      ∃ x ∈ listedEntries p.tlvs, x.lspID = id ∧ e.lsp.sequenceNumber ≤ x.sequenceNumber
  | _ => False

/-- An act clears, on the link, the flag of no entry but one it acknowledges. -/
def KeptByAct (act : Act) (link : String) (now : Int) (s : IsisServer) (level : Level) : Prop :=
  LinkKept s (act.run link now s).1 link level fun id =>
    ∀ e, s.entryAt level id = some e → Acknowledged act link now s level id e

theorem csnp_kept (cn : String) (p : CSNP) : KeptByAct (.csnp cn p) link now s level := by
  simp only [KeptByAct, Act.run, processCSNP]
  cases hdb : s.dbs p.level with
  | none => exact .of_circuitNamed rfl
  | some db =>
    refine .of_circuitKept (cfg_csnpCircuit db p now) fun hcn c _ => ?_
    have hfirst := circuitKept_foldl (circuitKept_csnpListed db.lookup level p.level now)
      (listedEntries p.tlvs) c
    refine CircuitKept.trans (hfirst.mono ?_) ?_
    · rintro id ⟨x, hx, rfl, hid, loc, hloc, hseq⟩ e he
      simp only [entryAt, hdb, bind_some, hloc] at he
      cases he
      exact ⟨hcn, rfl, by simp [entryAt, hdb, hloc], x, hx, hid, hseq⟩
    · refine (circuitKept_foldl (p := fun _ _ => False) (fun c i => ?_) db.keys _).mono ?_
      · split
        · exact (keepsSRM_setSRM _ _ _).circuitKept c
        · exact .refl c level _
      · rintro id ⟨-, -, hfalse⟩
        exact hfalse.elim

theorem psnp_kept (cn : String) (p : PSNP) : KeptByAct (.psnp cn p) link now s level := by
  simp only [KeptByAct, Act.run, processPSNP]
  split
  · rename_i c₀ db hc₀ hdb
    split
    · exact .of_circuitNamed rfl
    refine .of_circuitKept (cfg_psnpCircuit db p now) fun hcn c _ => ?_
    have hloop := circuitKept_foldl (circuitKept_psnpListed db.lookup level p.level now)
      (listedEntries p.tlvs) c
    refine hloop.mono ?_
    rintro id ⟨x, hx, rfl, hid, loc, hloc, hseq⟩ e he
    simp only [entryAt, hdb, bind_some, hloc] at he
    cases he
    exact ⟨hcn, rfl, by simp [entryAt, hdb, hloc], x, hx, hid, hseq⟩
  · exact .of_circuitNamed rfl

/-- Transmission on a fitting link keeps the flag of every held LSP. -/
theorem transmitSRM_linkKept (cn : String) (level' : Level) (order : List LSPID)
    (takes : LSPID → Bool) (hup : LinkUp s link level)
    (hfit : cn = link → ∀ c, s.circuitNamed link = some c →
      ∀ id e, s.entryAt level' id = some e → ((e.wire now).length : Int) ≤ c.cfg.mtu - 3) :
    LinkKept s (s.transmitSRM cn level' now order takes).1 link level
      fun id => s.entryAt level id = none := by
  unfold transmitSRM
  cases hc₀ : s.circuitNamed cn with
  | none => exact .of_circuitNamed rfl
  | some c₀ =>
    simp only
    split
    · exact .of_circuitNamed rfl
    refine .of_circuitKept (fun c => cfg_transmitLoop takes order 0 c) fun hcn c hc => ?_
    obtain ⟨x, hx, hp2p, -⟩ := hup
    rw [hc] at hx
    cases hx
    refine (transmitLoop_kept (s.entryAt level') level level' now takes order 0 c hp2p
      (hfit hcn c hc)).mono ?_
    rintro id ⟨rfl, hnone⟩
    exact hnone

theorem keepsSRM_foldl {E : Type} {f : Circuit → E → Circuit} (hf : ∀ e, KeepsSRM fun c => f c e)
    (es : List E) : KeepsSRM fun c => es.foldl f c := by
  induction es with
  | nil => exact ⟨fun _ => rfl, fun _ _ => rfl, fun _ _ _ h => h⟩
  | cons e es ih => exact (hf e).comp ih

/-- Sending a PSNP touches no SRM flag. -/
theorem transmitPSNP_linkKept (cn : String) (level' : Level) (order : List LSPID) :
    LinkKept s (s.transmitPSNP cn level' now order).1 link level cleared := by
  unfold transmitPSNP
  split
  · exact .of_circuitNamed rfl
  simp only
  split
  · exact .of_circuitNamed rfl
  · refine .onCircuit (keepsSRM_foldl (fun i => ?_) _)
    exact keepsSRM_clearSSN level' i

/-- A synchronization only adds SRM flags. -/
theorem sync_linkKept (cn : String) (level' : Level) :
    LinkKept s (s.syncCircuitLevel cn level' now).1 link level cleared := by
  unfold syncCircuitLevel
  cases s.circuitNamed cn with
  | none => exact .of_circuitNamed rfl
  | some c =>
    simp only
    split
    · exact .onCircuit ⟨fun _ => rfl, fun _ _ => rfl, fun _ _ _ h => h⟩
    have hloop := keepsSRM_foldl fun i => keepsSRM_setSRM level' i now
    exact .onCircuit
      ⟨fun c => (hloop _).cfg _, fun c l => (hloop _).maps _ l, fun c l id h =>
        (hloop _).srm _ l id h⟩

/-- An act of the update process. -/
def Act.updates : Act → Bool
  | .update _ => true
  | .lsp _ _ => true
  | _ => false

/-- Synchronization traffic stays off the database. -/
theorem run_frame (act : Act) (link : String) (now : Int) (s : IsisServer)
    (hoff : act.updates = false) :
    ∃ circuits, (act.run link now s).1 = { s with circuits := circuits } := by
  cases act with
  | update op => cases hoff
  | lsp raw jitter => cases hoff
  | _ =>
    simp only [Act.run, processCSNP, processPSNP, transmitSRM, transmitPSNP, syncCircuitLevel]
    repeat' split
    all_goals exact ⟨_, rfl⟩

/-- **An act is a step of the server**: the nodes of the link are servers as `Run` has them. -/
theorem run_isStep (act : Act) (link : String) (now : Int) (s : IsisServer) :
    ∃ op : Op, (act.run link now s).1 = op.exec now s := by
  cases hoff : act.updates with
  | true =>
    cases act with
    | update op => exact ⟨op, rfl⟩
    | lsp raw jitter => exact ⟨.receive link raw jitter, rfl⟩
    | _ => cases hoff
  | false =>
    obtain ⟨circuits, heq⟩ := run_frame act link now s hoff
    refine ⟨.environment
      ⟨circuits, s.levelCap, ⟨false, false⟩, s.lspBufferSize, s.overloadUntil, s.overloadManual,
        s.spfDirty, s.lspGenPending, s.nextExtCircID, s.pseudonodeCursor⟩, heq.trans ?_⟩
    have hdbs : (fun l => if (LevelSet.mk false false).has l ∧ (s.dbs l).isNone then some ∅
        else s.dbs l) = s.dbs := by
      funext l
      cases l <;> rfl
    simp only [Op.exec, changeEnvironment, hdbs]

/-- After an act, an entry with a clear flag stood there before with a clear flag, or the act
acknowledged it. -/
def ClearAfter (act : Act) (link : String) (now : Int) (s : IsisServer) (level : Level) : Prop :=
  ClearOr s (act.run link now s).1 link level (Acknowledged act link now s level)

/-- Off the update process only flags can change. -/
theorem KeptByAct.clearAfter (hkept : KeptByAct act link now s level) (hup : LinkUp s link level)
    (hoff : act.updates = false) : ClearAfter act link now s level := by
  refine LinkKept.clearOr hkept hup fun id e he _ => ?_
  obtain ⟨circuits, heq⟩ := run_frame act link now s hoff
  rw [heq] at he
  by_cases hack : Acknowledged act link now s level id e
  · exact .inr hack
  · exact .inl ⟨he, fun hcleared => hack (hcleared e he)⟩

/-- **One act and the link.** -/
theorem act_clearAfter (hup : LinkUp s link level) (hallowed : act.Allowed link now inbox s) :
    ClearAfter act link now s level := by
  cases act with
  | update op =>
    have henv : ∀ env, op = .environment env →
        (s.changeEnvironment env).circuitNamed link = s.circuitNamed link := by
      rintro env rfl
      exact hallowed
    obtain ⟨hup', hclear⟩ := exec_clearOr op now hup henv
    refine ⟨hup', fun id e he hnot => (hclear id e he hnot).imp_right ?_⟩
    rintro ⟨raw, jitter, lsp, rfl, -⟩
    exact absurd rfl hallowed
  | lsp raw jitter =>
    obtain ⟨hup', hclear⟩ := exec_clearOr (.receive link raw jitter) now hup
      fun env henv => by cases henv
    refine ⟨hup', fun id e he hnot => (hclear id e he hnot).imp_right ?_⟩
    rintro ⟨raw', jitter', lsp, ⟨⟩, hlsp⟩
    exact ⟨lsp, hlsp⟩
  | csnp cn p => exact (csnp_kept cn p).clearAfter hup rfl
  | psnp cn p => exact (psnp_kept cn p).clearAfter hup rfl
  | transmitSRM cn level' order takes =>
    refine KeptByAct.clearAfter ?_ hup rfl
    refine (transmitSRM_linkKept cn level' order takes hup hallowed).mono fun id hnone e he => ?_
    cases hnone.symm.trans he
  | transmitPSNP cn level' order =>
    exact KeptByAct.clearAfter (transmitPSNP_linkKept cn level' order) hup rfl
  | sendCSNP cn level' =>
    refine KeptByAct.clearAfter (.of_circuitNamed ?_) hup rfl
    simp only [Act.run]
    split <;> rfl
  | sync cn level' => exact KeptByAct.clearAfter (sync_linkKept cn level') hup rfl

/-! ## What was sent -/

variable {m : Message}

section Sent

variable {peer : String}

/-- A message a node in state `s` puts on the link at time `t`. -/
def SentFrom (t : Int) (s : IsisServer) (link : String) : Message → Prop
  | .lsp raw => ∃ level id e, s.entryAt level id = some e ∧ e.Agrees level id ∧ raw = e.wire t
  | .csnp p => ∀ x ∈ listedEntries p.tlvs,
      ∃ e, s.entryAt p.level x.lspID = some e ∧ x = describe x.lspID e t
  | .psnp p => ∃ c, s.circuitNamed link = some c ∧ ∀ x ∈ listedEntries p.tlvs,
      ∃ id, x = psnpEntry (s.entryAt p.level) p.level t c id

theorem mem_onLink {sent : List Message} : m ∈ onLink link cn sent ↔ cn = link ∧ m ∈ sent := by
  unfold onLink
  split <;> simp [*]

theorem sentFrom_csnp (link : String) {p : CSNP} (h : p ∈ s.sendCSNP c level now) :
    SentFrom now s link (.csnp p) := by
  obtain ⟨hlevel, hlisted⟩ := sendCSNP_listed h
  intro x hx
  rw [hlevel]
  exact hlisted x hx

/-- The CSNPs of a synchronization describe the database. -/
theorem sentFrom_sync (link : String) {p : CSNP} (h : p ∈ (s.syncCircuitLevel cn level now).2) :
    SentFrom now s link (.csnp p) := by
  unfold syncCircuitLevel at h
  split at h
  · cases h
  split at h
  · cases h
  · exact sentFrom_csnp link h

/-- **Everything an act sends comes from the node's state at that moment.** -/
theorem sentFrom_of_mem (hagree : EntriesAgree s) (h : m ∈ (act.run link now s).2) :
    SentFrom now s link m := by
  cases act with
  | update op => cases h
  | lsp raw jitter => cases h
  | csnp cn p => cases h
  | psnp cn p => cases h
  | transmitSRM cn level' order takes =>
    obtain ⟨-, h⟩ := mem_onLink.mp h
    obtain ⟨raw, hraw, rfl⟩ := mem_map.mp h
    unfold transmitSRM at hraw
    split at hraw
    · cases hraw
    split at hraw
    · cases hraw
    · obtain ⟨id, e, he, rfl⟩ := mem_transmitLoop hraw
      exact ⟨level', id, e, he, hagree.agrees level' id e he, rfl⟩
  | transmitPSNP cn level' order =>
    obtain ⟨rfl, hmem⟩ := mem_onLink.mp h
    obtain ⟨p, hp, rfl⟩ := mem_map.mp hmem
    obtain ⟨hlevel, c, hc, hlisted⟩ := transmitPSNP_listed hp
    refine ⟨c, hc, fun x hx => ?_⟩
    obtain ⟨id, -, heq⟩ := hlisted x hx
    rw [hlevel]
    exact ⟨id, heq⟩
  | sendCSNP cn level' =>
    simp only [Act.run] at h
    split at h
    · cases h
    · obtain ⟨-, h⟩ := mem_onLink.mp h
      obtain ⟨p, hp, rfl⟩ := mem_map.mp h
      exact sentFrom_csnp link hp
  | sync cn level' =>
    obtain ⟨-, h⟩ := mem_onLink.mp h
    obtain ⟨p, hp, rfl⟩ := mem_map.mp h
    exact sentFrom_sync link hp

/-- **An acknowledgement in order means what it says**: what stands for an acknowledgement comes
from a copy the neighbour held, or from a purge it had to answer for. -/
theorem covered_of_acknowledged (hallowed : act.Allowed link now inbox s)
    (hok : AcksInOrder link now s act) (hsent : ∀ m ∈ inbox, ∃ p ∈ past, SentFrom p.1 p.2 peer m)
    (hack : Acknowledged act link now s level id e) : Covered past peer level id e := by
  cases act with
  | lsp raw jitter =>
    obtain ⟨lsp, hdecode, rfl, rfl, rfl⟩ := hack
    obtain ⟨p, hp, l, i, e', he', hagrees, rfl⟩ := hsent _ hallowed
    obtain ⟨rfl, rfl, hseq, -, hrem⟩ := decode_wire hagrees hdecode
    refine ⟨p, hp, .inl ⟨e', he', .inr ⟨hseq, fun hpurge => ?_⟩⟩⟩
    rw [← hrem]
    by_contra hne
    simp [receivedEntry, hne] at hpurge
  | csnp cn q =>
    obtain ⟨hcn, rfl, he, x, hx, rfl, hseq⟩ := hack
    obtain ⟨p, hp, hlisted⟩ := hsent _ (hallowed hcn)
    obtain ⟨e', he', hx'⟩ := hlisted x hx
    have hpurge := hok hcn x hx e he hseq
    rw [hx'] at hseq hpurge
    exact ⟨p, hp, .inl ⟨e', he', .inr ⟨hseq, hpurge⟩⟩⟩
  | psnp cn q =>
    obtain ⟨hcn, rfl, he, x, hx, rfl, hseq⟩ := hack
    obtain ⟨p, hp, c, hc, hlisted⟩ := hsent _ (hallowed hcn)
    obtain ⟨i, hx'⟩ := hlisted x hx
    have hnew : AtLeastAsNew x.sequenceNumber (x.remainingTime = 0) e := by
      by_cases heq : e.lsp.sequenceNumber = x.sequenceNumber
      · exact .inr ⟨heq, (hok hcn x hx e he heq).2⟩
      · exact .inl (UInt32.lt_of_le_of_ne hseq heq)
    unfold psnpEntry at hx'
    cases hdb : p.2.entryAt q.level i with
    | some e' =>
      simp only [hdb] at hx'
      rw [hx'] at hnew ⊢
      exact ⟨p, hp, .inl ⟨e', hdb, hnew⟩⟩
    | none =>
      simp only [hdb] at hx'
      cases hans : c.ssnAckAt q.level i with
      | some ack =>
        simp only [hans] at hx'
        subst hx'
        exact ⟨p, hp, .inr ⟨c, i, x, hc, hans, rfl, hnew⟩⟩
      | none =>
        -- a request: in order it never meets a held copy
        simp only [hans] at hx'
        have hzero : x.sequenceNumber = 0 := by rw [hx']
        rcases hnew with hlt | ⟨heq, -⟩
        · rw [hzero] at hlt
          exact absurd hlt (UInt32.not_lt_zero)
        · have hone := (hok hcn x hx e he heq).1
          rw [hzero] at hone
          exact absurd hone (by decide)
  | update op => exact hack.elim
  | transmitSRM cn level' order takes => exact hack.elim
  | transmitPSNP cn level' order => exact hack.elim
  | sendCSNP cn level' => exact hack.elim
  | sync cn level' => exact hack.elim

end Sent

/-! ## The link invariant -/

/-- What holds between `a`'s end of the link, the messages in flight to `a` and `b`'s past. -/
structure LinkInvariant (la lb : String) (level : Level) (w : Link) : Prop where
  up : LinkUp w.a la level
  agree : EntriesAgree w.b
  present : (w.now, w.b) ∈ w.pastB
  sent : ∀ m ∈ w.toA, ∃ p ∈ w.pastB, SentFrom p.1 p.2 lb m
  covered : ∀ id e, w.a.entryAt level id = some e → ¬ SrmSet w.a la level id →
    Covered w.pastB lb level id e

section Invariant

variable {w : Link}

theorem Covered.mono {past' : List (Int × IsisServer)} (h : Covered past lb level id e)
    (hsub : past ⊆ past') : Covered past' lb level id e := by
  obtain ⟨p, hp, hcov⟩ := h
  exact ⟨p, hsub hp, hcov⟩

/-- `b`'s past only grows, and what was sent stays sent. -/
theorem LinkInvariant.later {b : IsisServer} (h : LinkInvariant la lb level w)
    (hagree : EntriesAgree b) (now : Int) (toB : List Message) (pastA : List (Int × IsisServer)) :
    LinkInvariant la lb level ⟨now, w.a, b, w.toA, toB, pastA, (now, b) :: w.pastB⟩ where
  up := h.up
  agree := hagree
  present := mem_cons_self
  sent m hm := by
    obtain ⟨p, hp, hfrom⟩ := h.sent m hm
    exact ⟨p, mem_cons_of_mem _ hp, hfrom⟩
  covered id e he hnot := (h.covered id e he hnot).mono (subset_cons_self _ _)

/-- One step keeps the link invariant. -/
theorem LinkInvariant.step (h : LinkInvariant la lb level w)
    (hstep : LinkStep la lb AcksInOrder w w') : LinkInvariant la lb level w' := by
  cases hstep with
  | tick t hle => exact h.later h.agree t w.toB _
  | left act hallowed hok =>
    obtain ⟨hup, hclear⟩ := act_clearAfter h.up hallowed
    refine ⟨hup, h.agree, h.present, h.sent, fun id e he hnot => ?_⟩
    rcases hclear id e he hnot with ⟨he₀, hnot₀⟩ | hack
    · exact h.covered id e he₀ hnot₀
    · exact covered_of_acknowledged hallowed hok h.sent hack
  | right act hallowed =>
    obtain ⟨op, hop⟩ := run_isStep act lb w.now w.b
    have hagree : EntriesAgree (act.run lb w.now w.b).1 := by
      rw [hop]
      exact h.agree.exec op w.now
    have hlater := h.later hagree w.now w.toB w.pastA
    refine ⟨hlater.up, hlater.agree, hlater.present, fun m hm => ?_, hlater.covered⟩
    rcases mem_append.mp hm with hm | hm
    · exact ⟨_, mem_cons_of_mem _ h.present, sentFrom_of_mem h.agree hm⟩
    · exact hlater.sent m hm

theorem srmAt_foldl_setSRM {ids : List LSPID} (hmap : (c.srm level).isSome = true)
    (hid : id ∈ ids) :
    ((ids.foldl (fun c i => c.setSRM level i now) c).srmAt level id).isSome = true := by
  induction ids generalizing c with
  | nil => cases hid
  | cons i ids ih =>
    have hset := keepsSRM_setSRM level i now
    rcases mem_cons.mp hid with rfl | hid
    · refine (keepsSRM_foldl (fun i => keepsSRM_setSRM level i now) ids).srm _ level id ?_
      rw [srmAt_setSRM, if_pos ⟨rfl, rfl, hmap⟩]
      rfl
    · exact ih (by rw [hset.maps]; exact hmap) hid

/-- A synchronization that is not held down sets SRM for everything the node holds. -/
theorem ReadyToSync.srmSet (h : ReadyToSync s link level now)
    (he : (s.syncCircuitLevel link level now).1.entryAt level id = some e) :
    SrmSet (s.syncCircuitLevel link level now).1 link level id := by
  obtain ⟨c, hc, -, hmap, -, hhold⟩ := h.circuit
  have hfree : ¬ syncHeld c level now = true := by
    unfold syncHeld
    cases ht : c.syncHold level with
    | none => simp
    | some t => simpa using hhold t ht
  unfold syncCircuitLevel at he ⊢
  simp only [hc, if_neg hfree] at he ⊢
  have hentry : s.entryAt level id = some e := he
  cases hdb : s.dbs level with
  | none =>
    simp only [entryAt, hdb] at hentry
    cases hentry
  | some db =>
    have hkey : id ∈ db.keys := by
      simp only [entryAt, hdb, bind_some] at hentry
      exact AList.lookup_isSome.mp (by rw [hentry]; rfl)
    have hloop := keepsSRM_foldl (fun i => keepsSRM_setSRM level i now) db.keys
    refine ⟨_, circuitNamed_onCircuit_self (fun c => hloop.cfg _) hc, ?_⟩
    exact srmAt_foldl_setSRM hmap hkey

/-- Both sides just synchronized: everything `a` holds is on its way. -/
theorem Start.linkInvariant (h : Start la lb level w) : LinkInvariant la lb level w := by
  obtain ⟨a₀, b₀, ha, hb, heqa, heqb, -, htoA⟩ := h.sides
  have hpast : (w.now, w.b) ∈ w.pastB := by
    rw [h.pastB]
    exact mem_cons_self
  refine ⟨?_, ?_, hpast, fun m hm => ?_, fun id e he hnot => ?_⟩
  · obtain ⟨c, hc, hp2p, hmap, -⟩ := ha.circuit
    rw [heqa]
    exact (sync_linkKept la level : LinkKept _ _ _ _ fun _ => False).linkUp ⟨c, hc, hp2p, hmap⟩
  · obtain ⟨o, t, hreach⟩ := hb.reachable
    obtain ⟨op, hop⟩ := run_isStep (.sync lb level) lb w.now b₀
    rw [heqb]
    have hrun : (b₀.syncCircuitLevel lb level w.now).1 = op.exec w.now b₀ := hop
    rw [hrun]
    exact (entries_agree hreach).exec op w.now
  · rw [htoA] at hm
    obtain ⟨p, hp, rfl⟩ := mem_map.mp hm
    refine ⟨_, hpast, fun x hx => ?_⟩
    obtain ⟨e, he, hdesc⟩ := sentFrom_sync lb hp x hx
    refine ⟨e, ?_, hdesc⟩
    obtain ⟨circuits, hframe⟩ := run_frame (.sync lb level) lb w.now b₀ rfl
    have hsync : (b₀.syncCircuitLevel lb level w.now).1 = { b₀ with circuits := circuits } := hframe
    rw [heqb, hsync]
    exact he
  · rw [heqa] at he hnot
    exact absurd (ha.srmSet he) hnot

theorem LinkReaches.linkInvariant (h : LinkReaches la lb AcksInOrder level w) :
    LinkInvariant la lb level w := by
  obtain ⟨w₀, hstart, hsteps⟩ := h
  induction hsteps with
  | refl => exact hstart.linkInvariant
  | tail _ hstep ih => exact ih.step hstep

end Invariant

/-- **Reliable flooding over a point-to-point link**: once both sides have synchronized, whatever is
lost, duplicated or reordered and whatever else either side does, a clear SRM flag means that the
neighbour has held a copy at least as new or answered its purge, as long as no acknowledgement
meets a copy of its own sequence number that it does not stand for. -/
theorem flooding_safe {la lb : String} {level : Level} {w : Link}
    (h : LinkReaches la lb AcksInOrder level w) {id : LSPID} {e : LspEntry} {c : Circuit}
    (he : w.a.entryAt level id = some e) (hc : w.a.circuitNamed la = some c)
    (hclear : c.srmAt level id = none) : Covered w.pastB lb level id e := by
  refine h.linkInvariant.covered id e he ?_
  rintro ⟨c', hc', hset⟩
  rw [hc] at hc'
  cases hc'
  rw [hclear] at hset
  cases hset

/-! ## A late acknowledgement -/

/-- An LSP of the system `0000.0000.0002` at sequence number 5. -/
def strangerLSP : Bytes :=
  [131, 27, 1, 0, 18, 1, 0, 0, 0, 27, 4, 176, 0, 0, 0, 0, 0, 2, 0, 0, 0, 0, 0, 5, 0xe6, 0x11, 1]

/-- Another LSP at that sequence number, with the overload bit set. -/
def conflictingLSP : Bytes :=
  [131, 27, 1, 0, 18, 1, 0, 0, 0, 27, 4, 176, 0, 0, 0, 0, 0, 2, 0, 0, 0, 0, 0, 5, 0xea, 0x09, 5]

def strangerID : LSPID := ⟨⟨octets6 0 0 0 0 0 2, 0⟩, 0⟩

/-- Point-to-point circuits of the given names, at Level 1. -/
def p2pNode (last : UInt8) (names : List String) : Options where
  hmac := fun _ _ _ => []
  systemID := octets6 0 0 0 0 0 last
  circuits := names.map fun n => ethernet n true 10

def builtNode (last : UInt8) (names : List String) : IsisServer :=
  (newIsisServer (p2pNode last names)).getD (blank (p2pNode last names))

/-- A neighbour that is Up at Level 1. -/
def upNeighbor : Adjacency where
  systemID := octets6 0 0 0 0 0 9
  snpa := octets6 0 0 0 0 0 9
  state := .up
  levels := ⟨true, false⟩

/-- Every circuit's adjacency comes Up. -/
def adjacenciesUp (s : IsisServer) : Op :=
  .environment
    ⟨s.circuits.map fun c => { c with p2pAdj := some upNeighbor }, s.levelCap, ⟨false, false⟩,
      s.lspBufferSize, s.overloadUntil, s.overloadManual, s.spfDirty, s.lspGenPending,
      s.nextExtCircID, s.pseudonodeCursor⟩

/-- A node whose adjacencies just came Up. -/
def upNode (last : UInt8) (names : List String) : IsisServer :=
  (adjacenciesUp (builtNode last names)).exec 0 (builtNode last names)

/-- Two nodes that just synchronized over `link`; `a` has another circuit. -/
def synced : Link :=
  let a := (upNode 1 ["link", "east"]).syncCircuitLevel "link" .level1 0
  let b := (upNode 3 ["link"]).syncCircuitLevel "link" .level1 0
  ⟨0, a.1, b.1, b.2.map .csnp, a.2.map .csnp, [(0, a.1)], [(0, b.1)]⟩

theorem readyToSync_a : ReadyToSync (upNode 1 ["link", "east"]) "link" .level1 0 where
  reachable := ⟨p2pNode 1 ["link", "east"], 0, ReachableVia.first rfl 0 _ trivial⟩
  circuit := ⟨_, rfl, rfl, rfl, rfl, fun _ h => by cases h⟩

theorem readyToSync_b : ReadyToSync (upNode 3 ["link"]) "link" .level1 0 where
  reachable := ⟨p2pNode 3 ["link"], 0, ReachableVia.first rfl 0 _ trivial⟩
  circuit := ⟨_, rfl, rfl, rfl, rfl, fun _ h => by cases h⟩

/-- `a` learns the LSP elsewhere. -/
def learned : Link := synced.left "link" (.update (.receive "east" strangerLSP 0))

/-- It floods the LSP. -/
def flooded : Link :=
  learned.left "link" (.transmitSRM "link" .level1 [strangerID] fun _ => true)

/-- `b` installs it and sends the acknowledgement. -/
def acknowledged : Link :=
  (flooded.right "link" (.lsp strangerLSP 0)).right "link"
    (.transmitPSNP "link" .level1 [strangerID])

/-- The acknowledgement in flight. -/
def strangerAck : PSNP :=
  ⟨.level1, ⟨octets6 0 0 0 0 0 3, 0⟩, [.lspEntries [⟨1200, strangerID, 5, 0xe611⟩]]⟩

/-- The acknowledgement arrives in time. -/
def settled : Link := acknowledged.left "link" (.psnp "link" strangerAck)

/-- A conflicting copy makes `a` purge the LSP first. -/
def purged : Link := acknowledged.left "link" (.update (.receive "east" conflictingLSP 0))

/-- Only then the acknowledgement arrives. -/
def overtaken : Link := purged.left "link" (.psnp "link" strangerAck)

/-- What `a` learned. -/
def strangerEntry : LspEntry where
  lsp := { level := .level1, remainingTime := 1200, lspID := strangerID, sequenceNumber := 5,
           checksum := 0xe611, isType := 1, tlvs := [] }
  raw := strangerLSP
  inserted := 0
  lifetime := 1200
  own := false
  purgedAt := none
  refreshAt := 0

theorem entryAt_learned (h : learned.a.entryAt .level1 id = some e) : e = strangerEntry := by
  have hdb : learned.a.dbs .level1 = some (AList.insert strangerID strangerEntry ∅) := rfl
  simp only [entryAt, hdb, bind_some, Map.lookup_insert_ite] at h
  split at h
  · cases h
    rfl
  · cases h

theorem acknowledged_reached : LinkReaches "link" "link" AcksInOrder .level1 acknowledged := by
  have hsynced : LinkReaches "link" "link" AcksInOrder .level1 synced :=
    ⟨synced, ⟨⟨_, _, readyToSync_a, readyToSync_b, rfl, rfl, rfl, rfl⟩, rfl, rfl⟩, .refl⟩
  have heast : "east" ≠ "link" := by decide
  have hlearned : LinkReaches "link" "link" AcksInOrder .level1 learned :=
    hsynced.step (.left (.update (.receive "east" strangerLSP 0)) heast trivial)
  have hflooded : LinkReaches "link" "link" AcksInOrder .level1 flooded := by
    refine hlearned.step (.left _ (fun _ c hc id e he => ?_) trivial)
    rw [entryAt_learned he]
    have hmtu : (learned.a.circuitNamed "link").map (·.cfg.mtu) = some 1500 := rfl
    rw [hc] at hmtu
    have hmtu' : c.cfg.mtu = 1500 := some.inj hmtu
    rw [hmtu']
    decide
  have hsent : Message.lsp strangerLSP ∈ flooded.toB := by
    have hhead : flooded.toB = .lsp strangerLSP :: learned.toB := rfl
    exact mem_cons_self
  exact (hflooded.step (.right (.lsp strangerLSP 0) hsent)).step (.right _ trivial)

theorem ack_in_flight : Message.psnp strangerAck ∈ acknowledged.toA := by
  have hhead : acknowledged.toA = .psnp strangerAck :: flooded.toA := rfl
  exact mem_cons_self

/-- The run in which the acknowledgement is in time meets the condition, and the cleared flag tells
the truth. -/
theorem flooding_safe_settled :
    LinkReaches "link" "link" AcksInOrder .level1 settled ∧
      Covered settled.pastB "link" .level1 strangerID strangerEntry := by
  have hreached : LinkReaches "link" "link" AcksInOrder .level1 settled := by
    refine acknowledged_reached.step (.left _ (fun _ => ack_in_flight) ?_)
    intro _ x hx loc hloc _
    obtain rfl : x = ⟨1200, strangerID, 5, 0xe611⟩ := by simpa [strangerAck, listedEntries] using hx
    have hentry : acknowledged.a.entryAt .level1 strangerID = some strangerEntry := rfl
    cases hentry.symm.trans hloc
    exact ⟨by decide, fun hpurge => by cases hpurge⟩
  exact ⟨hreached, flooding_safe hreached rfl rfl rfl⟩

/-- The purge `a` holds in the end. -/
def strangerPurge : LspEntry where
  lsp := { level := .level1, remainingTime := 0, lspID := strangerID, sequenceNumber := 5,
           checksum := 0x24bd, isType := 1, tlvs := [.unknown 13 [1, 0, 0, 0, 0, 0, 1]] }
  raw := [131, 27, 1, 0, 18, 1, 0, 0, 0, 36, 0, 0, 0, 0, 0, 0, 0, 2, 0, 0, 0, 0, 0, 5, 0x24,
    0xbd, 1, 13, 7, 1, 0, 0, 0, 0, 0, 1]
  inserted := 0
  lifetime := 0
  own := false
  purgedAt := some 0
  refreshAt := 0

/-- In all its past `b` has held nothing but the live copy, and answered for no purge. -/
theorem overtaken_pastB : ∀ p ∈ overtaken.pastB, ((p.2.entryAt .level1 strangerID).all fun e =>
      e.lsp.sequenceNumber = 5 ∧ e.remaining p.1 ≠ 0) = true ∧
    ((p.2.circuitNamed "link").bind fun c => (c.ssnAck .level1).map (·.keys)) = some [] := by
  decide

theorem not_covered_overtaken :
    ¬ Covered overtaken.pastB "link" .level1 strangerID strangerPurge := by
  rintro ⟨p, hp, hcov⟩
  obtain ⟨hheld, hacks⟩ := overtaken_pastB p hp
  rcases hcov with ⟨e', he', hnew⟩ | ⟨c, i, ack, hc, hack, -⟩
  · rw [he'] at hheld
    obtain ⟨hseq, hlive⟩ : e'.lsp.sequenceNumber = 5 ∧ e'.remaining p.1 ≠ 0 := by
      simpa using hheld
    rcases hnew with hlt | ⟨-, hpurge⟩
    · rw [hseq] at hlt
      exact absurd hlt (by decide)
    · exact hlive (hpurge rfl)
  · rw [hc] at hacks
    cases hmap : c.ssnAck .level1 with
    | none => simp [hmap] at hacks
    | some acks =>
      have hkeys : acks.keys = [] := by simpa [hmap] using hacks
      have hmem : i ∈ acks.keys := by
        refine AList.lookup_isSome.mp ?_
        simp only [ssnAckAt, hmap, bind_some] at hack
        rw [hack]
        rfl
      rw [hkeys] at hmem
      cases hmem

/-- **A late acknowledgement takes a purge for delivered**: `b` acknowledges the live copy, `a`
purges it at the same sequence number before the acknowledgement arrives, and `processPSNP` clears
the purge's flag although `b` has never seen it. -/
theorem stale_acknowledgement :
    LinkReaches "link" "link" AnyAct .level1 overtaken ∧
      overtaken.a.entryAt .level1 strangerID = some strangerPurge ∧
      (∃ c, overtaken.a.circuitNamed "link" = some c ∧ c.srmAt .level1 strangerID = none) ∧
      ¬ Covered overtaken.pastB "link" .level1 strangerID strangerPurge := by
  have hacked : LinkReaches "link" "link" AnyAct .level1 acknowledged :=
    acknowledged_reached.weaken fun _ _ _ _ _ => trivial
  have heast : "east" ≠ "link" := by decide
  have hpurged : LinkReaches "link" "link" AnyAct .level1 purged :=
    hacked.step (.left (.update (.receive "east" conflictingLSP 0)) heast trivial)
  have hlate : LinkReaches "link" "link" AnyAct .level1 overtaken :=
    hpurged.step (.left _ (fun _ => ack_in_flight) trivial)
  exact ⟨hlate, rfl, ⟨_, rfl, rfl⟩, not_covered_overtaken⟩

end Goisis.Server
