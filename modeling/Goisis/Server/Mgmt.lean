import Mathlib.Data.List.Count
import Mathlib.Data.List.Basic
import Mathlib.Data.List.Induction

/-!
# Management operations and the transports they hand over

Model of `mgmtOperationQueued`, `AddCircuit`, `DeleteCircuit` and `shutdown`
(`pkg/server/server.go`, `pkg/server/circuit_events.go`) as threads that share the channel `mgmtCh`
of capacity one. Every event is what one goroutine does between two points at which another may run:
one arm of one `select`, the loop running or draining one operation, the contexts being cancelled. A
`select` with several ready arms takes any of them, so each arm is an event of its own.

Each call of `AddCircuit` hands over its own transport and is named by it. Whether `addCircuit`
refuses a configuration (its fields, its MTU, the octets in use) is left open; a name that is in use
is always refused.

* `at_run` — where the transport of every call is, in every state of every run;
* `transport_owned_iff` — who closes the transport of every call, and that it is closed once the
  server has stopped unless its caller gave up an operation that the loop never ran;
* `abandoned_transport_stays_open` — such a run.
-/

namespace Goisis.Server

open List Option Function

variable {T : Type} {gaveUp : Bool}

/-! ## Threads -/

/-- What arrives on `errCh`: `nil`, a refusal of `addCircuit`, or `ErrServerStopped`. -/
inductive MgmtAnswer where
  | added
  | refused
  | stopped
deriving DecidableEq, Repr

/-- How `mgmtOperationQueued` ends: with an answer (which it makes up itself once `done` is closed)
or with `ctx.Err()`. -/
inductive MgmtOutcome where
  | answer (a : MgmtAnswer)
  | ctxDone
deriving DecidableEq, Repr

/-- Where a call of `AddCircuit` is. -/
inductive CallPhase where
  /-- Not made yet. -/
  | absent
  /-- At the `select` that queues the operation. -/
  | entering
  /-- At the `select` that waits for the answer. -/
  | waiting
  /-- Back from `mgmtOperationQueued`. -/
  | leaving (queued : Bool) (outcome : MgmtOutcome)
  /-- Back at its caller. -/
  | returned
deriving DecidableEq, Repr

/-- Where the Serve goroutine is. -/
inductive ServePhase where
  /-- Not started. -/
  | idle
  /-- In its loop. -/
  | running
  /-- In `shutdown`, past the closing of the transports. -/
  | stopping
  /-- Past the last operation `shutdown` finds on `mgmtCh`. -/
  | drained
  /-- `done` is closed. -/
  | done
deriving DecidableEq, Repr

/-- `shutdown` has closed the transports of the circuits. -/
def ServePhase.closed : ServePhase → Bool
  | .idle | .running => false
  | .stopping | .drained | .done => true

/-- Who closes a transport. -/
inductive Closer where
  | addCircuit
  | deleteCircuit
  | shutdown
deriving DecidableEq, Repr

/-- An operation on `mgmtCh`. -/
inductive MgmtOp (T : Type) where
  | addCircuit (t : T)
  | deleteCircuit (name : String)
  | other
deriving DecidableEq, Repr

/-- What is fixed: the names of the circuits, and those the server was made with. -/
structure MgmtSetup (T : Type) where
  name : T → String
  startup : List T

/-- The state all threads share. -/
structure MgmtServer (T : Type) where
  phase : T → CallPhase
  cancelled : T → Bool
  mgmtCh : List (MgmtOp T)
  errCh : T → Option MgmtAnswer
  serve : ServePhase
  circuits : List T
  closed : T → List Closer

/-- What a thread, or a context, does. -/
inductive MgmtEvent (T : Type) where
  /-- `AddCircuit` is called and looks at `ctx.Err()`. -/
  | call (t : T)
  /-- The call's context ends. -/
  | cancel (t : T)
  /-- The operation is sent on `mgmtCh`. -/
  | send (t : T)
  /-- The first `select` takes the arm of the context. -/
  | ctxEnter (t : T)
  /-- The first `select` takes the arm of `done`. -/
  | doneEnter (t : T)
  /-- The second `select` takes the answer. -/
  | receive (t : T)
  /-- The second `select` takes the arm of the context. -/
  | giveUp (t : T)
  /-- The second `select` takes the arm of `done` and looks for an answer. -/
  | doneWait (t : T)
  /-- `AddCircuit` closes what it has to close and returns. -/
  | finish (t : T)
  /-- Another management call queues its operation. -/
  | enqueue (op : MgmtOp T)
  /-- `Serve` is called. -/
  | start
  /-- The loop runs an operation; `refused` is `addCircuit`'s verdict. -/
  | run (op : MgmtOp T) (refused : Bool)
  /-- The loop sees its context end. -/
  | stop
  /-- `shutdown` answers an operation without running it. -/
  | drain (op : MgmtOp T)
  /-- `shutdown` finds `mgmtCh` empty. -/
  | finishDrain
  /-- `Serve` returns. -/
  | closeDone
deriving DecidableEq, Repr

namespace MgmtServer

variable [DecidableEq T]

variable (setup : MgmtSetup T)

/-- The server before anything is called. -/
def new : MgmtServer T where
  phase _ := .absent
  cancelled _ := false
  mgmtCh := []
  errCh _ := none
  serve := .idle
  circuits := setup.startup
  closed _ := []

variable (s : MgmtServer T)

def setPhase (t : T) (p : CallPhase) : MgmtServer T :=
  { s with phase := Function.update s.phase t p }

def close (closer : Closer) (t : T) : MgmtServer T :=
  { s with closed := Function.update s.closed t (s.closed t ++ [closer]) }

def answer (t : T) (a : MgmtAnswer) : MgmtServer T :=
  { s with errCh := Function.update s.errCh t (some a) }

/-- The caller takes the answer off `errCh`. -/
def consume (t : T) : MgmtServer T :=
  { s with errCh := Function.update s.errCh t none }

/-- The next operation is taken off `mgmtCh`. -/
def take : MgmtServer T := { s with mgmtCh := s.mgmtCh.tail }

/-- The loop runs an operation. -/
def runOp (s : MgmtServer T) (refused : Bool) : MgmtOp T → MgmtServer T
  | .addCircuit t =>
    if refused ∨ setup.name t ∈ s.circuits.map setup.name then
      (s.close .addCircuit t).answer t .refused
    else { s with circuits := s.circuits ++ [t] }.answer t .added
  | .deleteCircuit name =>
    match s.circuits.find? fun t => setup.name t = name with
    | none => s
    | some t => { s with circuits := s.circuits.erase t }.close .deleteCircuit t
  | .other => s

/-- `shutdown` closes the transports of the circuits. -/
def closeAll : MgmtServer T :=
  { s with closed := fun t => s.closed t ++ replicate (s.circuits.count t) .shutdown }

/-- `shutdown` answers an operation it does not run. -/
def refuseOp : MgmtOp T → MgmtServer T
  | .addCircuit t => s.answer t .stopped
  | .deleteCircuit _ => s
  | .other => s

/-- `AddCircuit` closes a transport the loop will never run a circuit on, as far as it can tell. -/
def owes (queued : Bool) (outcome : MgmtOutcome) : Bool := !queued || outcome == .answer .stopped

/-- One event, if it can happen. -/
def step (s : MgmtServer T) : MgmtEvent T → Option (MgmtServer T)
  | .call t =>
    if s.phase t = .absent ∧ t ∉ setup.startup then
      some (s.setPhase t (if s.cancelled t then .leaving false .ctxDone else .entering))
    else none
  | .cancel t => some { s with cancelled := Function.update s.cancelled t true }
  | .send t =>
    if s.phase t = .entering ∧ s.mgmtCh.length < 1 then
      some ({ s with mgmtCh := s.mgmtCh ++ [MgmtOp.addCircuit t] }.setPhase t .waiting)
    else none
  | .ctxEnter t =>
    if s.phase t = .entering ∧ s.cancelled t = true then
      some (s.setPhase t (.leaving false .ctxDone))
    else none
  | .doneEnter t =>
    if s.phase t = .entering ∧ s.serve = .done then
      some (s.setPhase t (.leaving false (.answer .stopped)))
    else none
  | .receive t =>
    match s.errCh t with
    | some a =>
      if s.phase t = .waiting then
        some ((s.consume t).setPhase t (.leaving true (.answer a)))
      else none
    | none => none
  | .giveUp t =>
    if s.phase t = .waiting ∧ s.cancelled t = true then
      some (s.setPhase t (.leaving true .ctxDone))
    else none
  | .doneWait t =>
    if s.phase t = .waiting ∧ s.serve = .done then
      some ((s.consume t).setPhase t (.leaving true (.answer ((s.errCh t).getD .stopped))))
    else none
  | .finish t =>
    match s.phase t with
    | .leaving queued outcome =>
      some ((if owes queued outcome then s.close .addCircuit t else s).setPhase t .returned)
    | .absent | .entering | .waiting | .returned => none
  | .enqueue op =>
    match op with
    | .addCircuit _ => none
    | .deleteCircuit _ | .other =>
      if s.mgmtCh.length < 1 then some { s with mgmtCh := s.mgmtCh ++ [op] } else none
  | .start => if s.serve = .idle then some { s with serve := .running } else none
  | .run op refused =>
    if s.serve = .running ∧ s.mgmtCh.head? = some op then
      some (runOp setup s.take refused op)
    else none
  | .stop => if s.serve = .running then some { s.closeAll with serve := .stopping } else none
  | .drain op =>
    if s.serve = .stopping ∧ s.mgmtCh.head? = some op then
      some (refuseOp s.take op)
    else none
  | .finishDrain =>
    if s.serve = .stopping ∧ s.mgmtCh = [] then some { s with serve := .drained } else none
  | .closeDone => if s.serve = .drained then some { s with serve := .done } else none

/-- The state after a sequence of events, if they can happen in that order. -/
def run (es : List (MgmtEvent T)) : Option (MgmtServer T) :=
  es.foldl (fun s e => s.bind fun s => step setup s e) (some (new setup))

end MgmtServer

/-! ## Where a transport is -/

/-- What the shared state has about one transport. -/
@[ext] structure TransportView where
  queued : ℕ
  errCh : Option MgmtAnswer
  running : ℕ
  closed : List Closer

/-- The loop never ran the operation: it is on the channel, or was answered by `shutdown`. -/
def Unrun (serve : ServePhase) (v : TransportView) : Prop :=
  v = ⟨1, none, 0, []⟩ ∨ (serve.closed = true ∧ v = ⟨0, some .stopped, 0, []⟩)

/-- The loop ran the operation with result `a`: the transport was closed at once, or a circuit runs
on it, or that circuit has been deleted. -/
def Ran (serve : ServePhase) (a : MgmtAnswer) (v : TransportView) : Prop :=
  v.queued = 0 ∧ ((a = .refused ∧ v.running = 0 ∧ v.closed = [.addCircuit]) ∨
      (a = .added ∧ v.running = 1 ∧ v.closed = if serve.closed then [.shutdown] else []) ∨
      (a = .added ∧ v.running = 0 ∧ v.closed = [.deleteCircuit]))

/-- What holds of a transport while its call is in the given phase; `ran` is the result with which
the loop ran the operation, if it did, and `gaveUp` says whether the caller stopped waiting for
it. -/
def Stage (serve : ServePhase) (v : TransportView) (ran : Option MgmtAnswer) (gaveUp : Bool) :
    CallPhase → Prop
  | .absent | .entering | .leaving false _ => v = ⟨0, none, 0, []⟩ ∧ ran = none ∧ gaveUp = false
  | .waiting => gaveUp = false ∧
      ((ran = none ∧ Unrun serve v) ∨ ∃ a, ran = some a ∧ Ran serve a v ∧ v.errCh = some a)
  | .leaving true (.answer .stopped) => gaveUp = false ∧ ran = none ∧
      (v = ⟨0, none, 0, []⟩ ∨ (serve = .done ∧ v = ⟨1, none, 0, []⟩))
  | .leaving true (.answer a) => gaveUp = false ∧ ran = some a ∧ Ran serve a v
  | .leaving true .ctxDone => gaveUp = true ∧
      ((ran = none ∧ Unrun serve v) ∨ ∃ a, ran = some a ∧ Ran serve a v)
  | .returned =>
      (gaveUp = false ∧ ran = none ∧
        (v = ⟨0, none, 0, [.addCircuit]⟩ ∨ (serve = .done ∧ v = ⟨1, none, 0, [.addCircuit]⟩))) ∨
      (gaveUp = true ∧ ran = none ∧ Unrun serve v) ∨ ∃ a, ran = some a ∧ Ran serve a v

variable {ran : Option MgmtAnswer}

section Stages

variable {serve serve' : ServePhase} {v v' : TransportView} {phase : CallPhase} {a : MgmtAnswer}

/-- What the Serve goroutine does to a transport that stays where it is. -/
structure Carries (serve serve' : ServePhase) (v v' : TransportView) : Prop where
  done : serve = .done → serve' = .done
  /-- A transport no circuit runs on is left alone. -/
  idle : v.running = 0 → v' = v
  unrun : Unrun serve v → Unrun serve' v'
  ran : ∀ a, Ran serve a v → Ran serve' a v'
  errCh : v'.errCh = v.errCh

theorem Stage.carry (h : Stage serve v ran gaveUp phase) (hc : Carries serve serve' v v') :
    Stage serve' v' ran gaveUp phase := by
  have hidle : ∀ {q cl}, v = ⟨q, none, 0, cl⟩ → v' = ⟨q, none, 0, cl⟩ := by
    intro q cl hv
    exact (hc.idle (by rw [hv])).trans hv
  have hleft : ∀ {q cl}, serve = .done ∧ v = ⟨q, none, 0, cl⟩ → serve' = .done ∧
      v' = ⟨q, none, 0, cl⟩ :=
    fun hv => ⟨hc.done hv.1, hidle hv.2⟩
  cases phase with
  | absent => exact ⟨hidle h.1, h.2⟩
  | entering => exact ⟨hidle h.1, h.2⟩
  | waiting =>
    refine ⟨h.1, h.2.imp (And.imp_right hc.unrun) ?_⟩
    rintro ⟨a, hr, hran, herr⟩
    exact ⟨a, hr, hc.ran a hran, hc.errCh.trans herr⟩
  | leaving queued outcome =>
    cases queued with
    | false => exact ⟨hidle h.1, h.2⟩
    | true =>
      cases outcome with
      | ctxDone =>
        refine ⟨h.1, h.2.imp (And.imp_right hc.unrun) ?_⟩
        rintro ⟨a, hr, hran⟩
        exact ⟨a, hr, hc.ran a hran⟩
      | answer a =>
        cases a with
        | stopped => exact ⟨h.1, h.2.1, h.2.2.imp hidle hleft⟩
        | added => exact ⟨h.1, h.2.1, hc.ran _ h.2.2⟩
        | refused => exact ⟨h.1, h.2.1, hc.ran _ h.2.2⟩
  | returned =>
    rcases h with ⟨hg, hr, hv⟩ | ⟨hg, hr, hv⟩ | ⟨a, hr, hv⟩
    · exact .inl ⟨hg, hr, hv.imp hidle hleft⟩
    · exact .inr (.inl ⟨hg, hr, hc.unrun hv⟩)
    · exact .inr (.inr ⟨a, hr, hc.ran a hv⟩)

/-- The Serve goroutine moves on without closing anything. -/
theorem Carries.of_closed (hclosed : serve'.closed = serve.closed)
    (hdone : serve = .done → serve' = .done) : Carries serve serve' v v where
  done := hdone
  idle _ := rfl
  unrun h := h.imp_right fun h => ⟨hclosed.trans h.1, h.2⟩
  ran a h := by
    unfold Ran
    rw [hclosed]
    exact h
  errCh := rfl

/-- `shutdown` closes the transports of the circuits. -/
theorem Carries.of_stop : Carries .running .stopping v
    { v with closed := v.closed ++ replicate v.running .shutdown } where
  done h := nomatch h
  idle h := by
    cases v
    cases h
    simp
  unrun h := by
    rcases h with rfl | ⟨hclosed, -⟩
    · exact .inl rfl
    · cases hclosed
  ran a h := by
    obtain ⟨hq, ⟨rfl, hr, hc⟩ | ⟨rfl, hr, hc⟩ | ⟨rfl, hr, hc⟩⟩ := h
    · exact ⟨hq, .inl ⟨rfl, hr, by simp [hr, hc]⟩⟩
    · exact ⟨hq, .inr (.inl ⟨rfl, hr, by simp [hr, hc, ServePhase.closed]⟩)⟩
    · exact ⟨hq, .inr (.inr ⟨rfl, hr, by simp [hr, hc]⟩)⟩
  errCh := rfl

/-- `deleteCircuit` removes the circuit that runs on the transport and closes it. -/
theorem Carries.of_delete (hrunning : v.running ≠ 0) : Carries .running .running v
    { v with running := v.running - 1, closed := v.closed ++ [.deleteCircuit] } where
  done h := nomatch h
  idle h := absurd h hrunning
  unrun h := by
    rcases h with rfl | ⟨-, rfl⟩
    · exact absurd rfl hrunning
    · exact absurd rfl hrunning
  ran a h := by
    obtain ⟨hq, ⟨rfl, hr, hc⟩ | ⟨rfl, hr, hc⟩ | ⟨rfl, hr, hc⟩⟩ := h
    · exact absurd hr hrunning
    · exact ⟨hq, .inr (.inr ⟨rfl, by simp [hr], by simp [hc, ServePhase.closed]⟩)⟩
    · exact absurd hr hrunning
  errCh := rfl

/-- **What every stage knows of the transport**: the loop has nothing to do with it; or it has not
run the operation, for which the caller waits or which it has given up; or it ran it. -/
theorem Stage.fate (h : Stage serve v ran gaveUp phase) :
    (∃ q c, v = ⟨q, none, 0, c⟩ ∧ ran = none ∧ c.length ≤ 1 ∧ (q ≠ 0 → serve = .done)) ∨
    (Unrun serve v ∧ ran = none ∧ ((gaveUp = false ∧ phase = .waiting) ∨
      (gaveUp = true ∧ (phase = .leaving true .ctxDone ∨ phase = .returned)))) ∨
    ∃ a, ran = some a ∧ Ran serve a v := by
  have hfresh : ∀ {c : List Closer}, c.length ≤ 1 → v = ⟨0, none, 0, c⟩ → ran = none →
      ∃ q c, v = ⟨q, none, 0, c⟩ ∧ ran = none ∧ c.length ≤ 1 ∧ (q ≠ 0 → serve = .done) :=
    fun hc hv hr => ⟨0, _, hv, hr, hc, fun hne => absurd rfl hne⟩
  cases phase with
  | absent | entering => exact .inl (hfresh (Nat.zero_le _) h.1 h.2.1)
  | waiting =>
    obtain ⟨hg, ⟨hr, hv⟩ | ⟨a, hr, hran, -⟩⟩ := h
    · exact .inr (.inl ⟨hv, hr, .inl ⟨hg, rfl⟩⟩)
    · exact .inr (.inr ⟨a, hr, hran⟩)
  | leaving queued outcome =>
    cases queued with
    | false => exact .inl (hfresh (Nat.zero_le _) h.1 h.2.1)
    | true =>
      cases outcome with
      | ctxDone =>
        obtain ⟨hg, ⟨hr, hv⟩ | hran⟩ := h
        · exact .inr (.inl ⟨hv, hr, .inr ⟨hg, .inl rfl⟩⟩)
        · exact .inr (.inr hran)
      | answer a =>
        cases a with
        | stopped =>
          rcases h.2.2 with hv | ⟨hd, hv⟩
          · exact .inl (hfresh (Nat.zero_le _) hv h.2.1)
          · exact .inl ⟨1, [], hv, h.2.1, Nat.zero_le _, fun _ => hd⟩
        | added | refused => exact .inr (.inr ⟨_, h.2⟩)
  | returned =>
    rcases h with ⟨-, hr, hv | ⟨hd, hv⟩⟩ | ⟨hg, hr, hv⟩ | hran
    · exact .inl (hfresh (Nat.le_refl _) hv hr)
    · exact .inl ⟨1, _, hv, hr, Nat.le_refl _, fun _ => hd⟩
    · exact .inr (.inl ⟨hv, hr, .inr ⟨hg, .inr rfl⟩⟩)
    · exact .inr (.inr hran)

/-- **An operation the loop or `shutdown` takes from the channel** was not run before, and its
caller waits for it or has given up. -/
theorem Stage.of_queued (h : Stage serve v ran gaveUp phase) (hq : v.queued ≠ 0)
    (hdone : serve ≠ .done) : v = ⟨1, none, 0, []⟩ ∧ ran = none ∧
      ((gaveUp = false ∧ phase = .waiting) ∨
        (gaveUp = true ∧ (phase = .leaving true .ctxDone ∨ phase = .returned))) := by
  rcases h.fate with ⟨q, c, rfl, -, -, hd⟩ | ⟨rfl | ⟨-, rfl⟩, hwho⟩ | ⟨a, -, hran⟩
  · exact absurd (hd hq) hdone
  · exact ⟨rfl, hwho⟩
  · exact absurd rfl hq
  · exact absurd hran.1 hq

/-- The loop runs the operation. -/
theorem Stage.run (h : Stage .running v ran gaveUp phase) (hq : v.queued ≠ 0)
    (hran : Ran .running a v') (herr : v'.errCh = some a) :
    Stage .running v' (some a) gaveUp phase := by
  obtain ⟨-, -, ⟨rfl, rfl⟩ | ⟨rfl, rfl | rfl⟩⟩ := h.of_queued hq nofun
  · exact ⟨rfl, .inr ⟨a, rfl, hran, herr⟩⟩
  · exact ⟨rfl, .inr ⟨a, rfl, hran⟩⟩
  · exact .inr (.inr ⟨a, rfl, hran⟩)

/-- `shutdown` answers the operation. -/
theorem Stage.drain (h : Stage .stopping v ran gaveUp phase) (hq : v.queued ≠ 0) :
    Stage .stopping ⟨0, some .stopped, 0, []⟩ ran gaveUp phase := by
  have hunrun : Unrun .stopping ⟨0, some .stopped, 0, []⟩ := .inr ⟨rfl, rfl⟩
  obtain ⟨-, hr, ⟨rfl, rfl⟩ | ⟨rfl, rfl | rfl⟩⟩ := h.of_queued hq nofun
  · exact ⟨rfl, .inl ⟨hr, hunrun⟩⟩
  · exact ⟨rfl, .inl ⟨hr, hunrun⟩⟩
  · exact .inr (.inl ⟨rfl, hr, hunrun⟩)

/-- The caller takes the answer. -/
theorem Stage.receive (h : Stage serve v ran gaveUp .waiting) (herr : v.errCh = some a) :
    Stage serve { v with errCh := none } ran gaveUp (.leaving true (.answer a)) := by
  obtain ⟨rfl, ⟨rfl, rfl | ⟨-, rfl⟩⟩ | ⟨a', rfl, hran, herr'⟩⟩ := h
  · cases herr
  · cases herr
    exact ⟨rfl, rfl, .inl rfl⟩
  · cases herr.symm.trans herr'
    have hkept : Ran serve a { v with errCh := none } := hran
    cases a with
    | stopped => obtain ⟨-, ⟨h, -⟩ | ⟨h, -⟩ | ⟨h, -⟩⟩ := hran <;> cases h
    | added => exact ⟨rfl, rfl, hkept⟩
    | refused => exact ⟨rfl, rfl, hkept⟩

/-- The caller finds `done` closed. -/
theorem Stage.doneWait (h : Stage .done v ran gaveUp .waiting) :
    Stage .done { v with errCh := none } ran gaveUp
      (.leaving true (.answer (v.errCh.getD .stopped))) := by
  cases herr : v.errCh with
  | some a => exact h.receive herr
  | none =>
    obtain ⟨rfl, ⟨rfl, rfl | ⟨-, rfl⟩⟩ | ⟨a', rfl, hran, herr'⟩⟩ := h
    · exact ⟨rfl, rfl, .inr ⟨rfl, rfl⟩⟩
    · cases herr
    · cases herr.symm.trans herr'

/-- The caller gives up. -/
theorem Stage.giveUp (h : Stage serve v ran gaveUp .waiting) :
    Stage serve v ran true (.leaving true .ctxDone) := by
  refine ⟨rfl, h.2.imp_right ?_⟩
  rintro ⟨a, hr, hran, -⟩
  exact ⟨a, hr, hran⟩

/-- The caller closes what it has to close and returns. -/
theorem Stage.finish {queued : Bool} {outcome : MgmtOutcome}
    (h : Stage serve v ran gaveUp (.leaving queued outcome)) :
    Stage serve (if MgmtServer.owes queued outcome then
      { v with closed := v.closed ++ [.addCircuit] } else v)
      ran gaveUp .returned := by
  cases queued with
  | false =>
    obtain ⟨rfl, rfl, rfl⟩ := h
    exact .inl ⟨rfl, rfl, .inl rfl⟩
  | true =>
    cases outcome with
    | ctxDone =>
      obtain ⟨rfl, ⟨hr, hv⟩ | hran⟩ := h
      · exact .inr (.inl ⟨rfl, hr, hv⟩)
      · exact .inr (.inr hran)
    | answer a =>
      cases a with
      | stopped =>
        obtain ⟨rfl, rfl, rfl | ⟨hd, rfl⟩⟩ := h
        · exact .inl ⟨rfl, rfl, .inl rfl⟩
        · exact .inl ⟨rfl, rfl, .inr ⟨hd, rfl⟩⟩
      | added => exact .inr (.inr ⟨_, h.2⟩)
      | refused => exact .inr (.inr ⟨_, h.2⟩)

end Stages

/-! ## Along a run -/

variable {setup : MgmtSetup T} {s : MgmtServer T} {es : List (MgmtEvent T)} {p : CallPhase}

section Runs

open MgmtServer

variable [DecidableEq T] {u : T} {op : MgmtOp T}

/-- What the state has about a transport. -/
def MgmtServer.view (s : MgmtServer T) (t : T) : TransportView :=
  ⟨s.mgmtCh.count (.addCircuit t), s.errCh t, s.circuits.count t, s.closed t⟩

/-- The event runs the operation of the call. -/
def MgmtEvent.runs (t : T) : MgmtEvent T → Bool
  | .run (.addCircuit u) _ => u = t
  | _ => false

/-- The event is the caller giving up its operation. -/
def MgmtEvent.givesUp (t : T) : MgmtEvent T → Bool
  | .giveUp u => u = t
  | _ => false

variable {s' : MgmtServer T} {e : MgmtEvent T} {t : T}

/-- The stage of a call in a state. -/
def MgmtServer.At (s : MgmtServer T) (t : T) (ran : Option MgmtAnswer) (gaveUp : Bool) : Prop :=
  Stage s.serve (s.view t) ran gaveUp (s.phase t)

/-- The stage of a call after an event. -/
def MgmtServer.After (s : MgmtServer T) (e : MgmtEvent T) (t : T) (ran : Option MgmtAnswer)
    (gaveUp : Bool) : Prop :=
  if e.runs t then ran = none ∧ ∃ a, s.At t (some a) gaveUp ∧ (a = .added → t ∈ s.circuits)
  else s.At t ran gaveUp

theorem MgmtServer.At.stage (h : s.At t ran gaveUp) (hphase : s.phase t = p) :
    Stage s.serve (s.view t) ran gaveUp p := hphase ▸ h

/-- Nothing about the call changed. -/
theorem MgmtServer.At.frame (h : s.At t ran gaveUp) (hserve : s'.serve = s.serve)
    (hview : s'.view t = s.view t) (hphase : s'.phase t = s.phase t) : s'.At t ran gaveUp := by
  unfold At
  rw [hserve, hview, hphase]
  exact h

/-- The event neither runs the operation of the call nor gives it up. -/
theorem MgmtServer.At.quiet (h : s.At t ran gaveUp) (hruns : e.runs t = false)
    (hgives : e.givesUp t = false) : s.After e t ran (gaveUp || e.givesUp t) := by
  rw [After, hruns, hgives, Bool.or_false]
  exact h

theorem setPhase_self (p : CallPhase) : (s.setPhase t p).phase t = p := update_self _ _ _

theorem setPhase_other (hu : t ≠ u) (p : CallPhase) : (s.setPhase u p).phase t = s.phase t :=
  update_of_ne hu _ _

/-- A call moves on: what the others see stays. -/
theorem MgmtServer.At.setPhase (h : s.At t ran gaveUp)
    (hself : u = t → Stage s.serve (s.view t) ran gaveUp p) : (s.setPhase u p).At t ran gaveUp := by
  by_cases hu : u = t
  · subst hu
    unfold At
    rw [setPhase_self]
    exact hself rfl
  · exact h.frame rfl rfl (setPhase_other (Ne.symm hu) p)

theorem view_setPhase (p : CallPhase) : (s.setPhase u p).view t = s.view t := rfl

theorem view_close (closer : Closer) (u : T) : (s.close closer u).view t =
    if u = t then { s.view t with closed := s.closed t ++ [closer] } else s.view t := by
  by_cases hu : u = t
  · subst hu
    simp [view, close]
  · simp [view, close, hu, update_of_ne (Ne.symm hu)]

theorem view_errCh (answer : Option MgmtAnswer) (u : T) :
    view { s with errCh := update s.errCh u answer } t =
      if u = t then { s.view t with errCh := answer } else s.view t := by
  by_cases hu : u = t
  · subst hu
    simp [view]
  · simp [view, hu, update_of_ne (Ne.symm hu)]

theorem view_answer (a : MgmtAnswer) (u : T) : (s.answer u a).view t =
    if u = t then { s.view t with errCh := some a } else s.view t := view_errCh (some a) u

theorem view_consume (u : T) : (s.consume u).view t =
    if u = t then { s.view t with errCh := none } else s.view t := view_errCh none u

/-- A call leaves the second `select` with an answer. -/
theorem MgmtServer.At.consume (h : s.At t ran gaveUp)
    (hself : u = t → Stage s.serve { s.view t with errCh := none } ran gaveUp p) :
    ((s.consume u).setPhase u p).At t ran gaveUp := by
  by_cases hu : u = t
  · subst hu
    unfold At
    rw [setPhase_self]
    rw [view_setPhase, view_consume, if_pos rfl]
    exact hself rfl
  · refine h.frame rfl ?_ (setPhase_other (Ne.symm hu) p)
    rw [view_setPhase, view_consume, if_neg hu]

/-- Taking an operation off the channel, as another call sees it. -/
theorem view_tail (hhead : s.mgmtCh.head? = some op) (hop : op ≠ .addCircuit t) :
    s.take.view t = s.view t := by
  obtain ⟨rest, hch⟩ := head?_eq_some_iff.mp hhead
  simp [view, MgmtServer.take, hch, count_cons_of_ne hop]

/-- The operation of the call is on the channel. -/
theorem view_of_head (hhead : s.mgmtCh.head? = some (.addCircuit t)) : (s.view t).queued ≠ 0 := by
  obtain ⟨rest, hch⟩ := head?_eq_some_iff.mp hhead
  simp [view, hch]

/-- Taking the operation of the call off the channel, where it was alone. -/
theorem view_tail_self (hhead : s.mgmtCh.head? = some (.addCircuit t))
    (hview : s.view t = ⟨1, none, 0, []⟩) : s.take.view t = ⟨0, none, 0, []⟩ := by
  obtain ⟨rest, hch⟩ := head?_eq_some_iff.mp hhead
  simp only [view, TransportView.mk.injEq, hch, count_cons_self] at hview
  simp only [view, MgmtServer.take, TransportView.mk.injEq, hch, tail_cons]
  exact ⟨by omega, hview.2⟩

/-- What the loop makes of an addition: it closes the transport, or runs a circuit on it. -/
theorem runOp_addCircuit (setup : MgmtSetup T) (refused : Bool) (u : T) :
    runOp setup s refused (.addCircuit u) = (s.close .addCircuit u).answer u .refused ∨
      runOp setup s refused (.addCircuit u) =
        { s with circuits := s.circuits ++ [u] }.answer u .added := by
  simp only [runOp]
  split
  · exact .inl rfl
  · exact .inr rfl

/-- The loop runs the operation of the call. -/
theorem view_runAdd (setup : MgmtSetup T) (refused : Bool) (hfresh : s.view t = ⟨0, none, 0, []⟩) :
    ∃ a, Ran .running a ((runOp setup s refused (.addCircuit t)).view t) ∧
      ((runOp setup s refused (.addCircuit t)).view t).errCh = some a ∧
      (a = .added → t ∈ (runOp setup s refused (.addCircuit t)).circuits) := by
  simp only [view, TransportView.mk.injEq] at hfresh
  obtain ⟨hq, -, hr, hc⟩ := hfresh
  rcases runOp_addCircuit (s := s) setup refused t with heq | heq
  · rw [heq, view_answer, if_pos rfl, view_close, if_pos rfl]
    exact ⟨.refused, ⟨hq, .inl ⟨rfl, hr, by simp [hc]⟩⟩, rfl, nofun⟩
  · rw [heq, view_answer, if_pos rfl]
    exact ⟨.added, ⟨hq, .inr (.inl ⟨rfl, by simp [view, hr], hc⟩)⟩, rfl, fun _ => by simp [answer]⟩

/-- The loop runs the operation of another call. -/
theorem view_runAdd_other (refused : Bool) (hu : u ≠ t) :
    (runOp setup s refused (.addCircuit u)).view t = s.view t := by
  rcases runOp_addCircuit (s := s) setup refused u with heq | heq
  · rw [heq, view_answer, if_neg hu, view_close, if_neg hu]
  · rw [heq, view_answer, if_neg hu]
    simp [view, hu]

/-- The loop deletes a circuit: the transport is closed if that was the circuit running on it. -/
theorem view_runDelete (setup : MgmtSetup T) (refused : Bool) (name : String) :
    (runOp setup s refused (.deleteCircuit name)).view t = s.view t ∨
      ((s.view t).running ≠ 0 ∧ (runOp setup s refused (.deleteCircuit name)).view t =
        { s.view t with
          running := (s.view t).running - 1
          closed := (s.view t).closed ++ [.deleteCircuit] }) := by
  simp only [runOp]
  cases hfind : s.circuits.find? fun t => setup.name t = name with
  | none => exact .inl rfl
  | some u =>
    rw [view_close]
    by_cases hu : u = t
    · subst hu
      refine .inr ⟨?_, ?_⟩
      · exact Nat.ne_of_gt (count_pos_iff.mpr (mem_of_find?_eq_some hfind))
      · simp [view]
    · rw [if_neg hu]
      exact .inl (by simp [view, count_erase_of_ne (Ne.symm hu)])

@[simp] theorem serve_runOp (op : MgmtOp T) (refused : Bool) :
    (runOp setup s refused op).serve = s.serve := by
  unfold runOp
  repeat' split
  all_goals rfl

@[simp] theorem phase_runOp (op : MgmtOp T) (refused : Bool) :
    (runOp setup s refused op).phase = s.phase := by
  unfold runOp
  repeat' split
  all_goals rfl

/-- The loop runs an operation that is not the call's. -/
theorem at_runOp_other (refused : Bool) (h : s.At t ran gaveUp) (hserve : s.serve = .running)
    (hop : op ≠ .addCircuit t) : (runOp setup s refused op).At t ran gaveUp := by
  cases op with
  | addCircuit u =>
    have hu : u ≠ t := fun hu => hop (congrArg _ hu)
    exact h.frame (serve_runOp _ _) (view_runAdd_other refused hu) (by rw [phase_runOp])
  | deleteCircuit name =>
    rcases view_runDelete (s := s) (t := t) setup refused name with hview | ⟨hrunning, hview⟩
    · exact h.frame (serve_runOp _ _) hview (by rw [phase_runOp])
    unfold At at h ⊢
    rw [serve_runOp, phase_runOp, hview]
    rw [hserve] at h ⊢
    exact h.carry (.of_delete hrunning)
  | other => exact h

/-- **The loop runs an operation.** -/
theorem at_runOp (refused : Bool) (h : s.At t ran gaveUp) (hserve : s.serve = .running)
    (hhead : s.mgmtCh.head? = some op) :
    (runOp setup s.take refused op).After (.run op refused) t ran gaveUp := by
  unfold After
  by_cases hop : op = .addCircuit t
  · subst hop
    unfold At at h
    rw [hserve] at h
    have hq := view_of_head hhead
    obtain ⟨hview, hnone, -⟩ := h.of_queued hq nofun
    obtain ⟨a, hran, herr, hadded⟩ := view_runAdd setup refused (view_tail_self hhead hview)
    have hruns : (MgmtEvent.run (.addCircuit t) refused).runs t = true := decide_eq_true rfl
    have hrunning : s.take.serve = .running := hserve
    rw [if_pos hruns]
    refine ⟨hnone, a, ?_, hadded⟩
    rw [At, serve_runOp, hrunning, phase_runOp]
    exact h.run hq hran herr
  · have htail : s.take.At t ran gaveUp :=
      h.frame rfl (view_tail hhead hop) rfl
    have hruns : (MgmtEvent.run op refused).runs t = false := by
      cases op with
      | addCircuit u => exact decide_eq_false fun hu => hop (congrArg _ hu)
      | deleteCircuit name => rfl
      | other => rfl
    rw [hruns]
    exact at_runOp_other refused htail hserve hop

/-- **`shutdown` answers an operation.** -/
theorem at_refuseOp (h : s.At t ran gaveUp) (hserve : s.serve = .stopping)
    (hhead : s.mgmtCh.head? = some op) : (refuseOp s.take op).At t ran gaveUp := by
  by_cases hop : op = .addCircuit t
  · subst hop
    unfold At at h
    rw [hserve] at h
    have hq := view_of_head hhead
    have htail := view_tail_self hhead (h.of_queued hq nofun).1
    show Stage s.serve ((s.take.answer t .stopped).view t) ran gaveUp (s.phase t)
    rw [view_answer, if_pos rfl, htail, hserve]
    exact h.drain hq
  · have htail : s.take.At t ran gaveUp :=
      h.frame rfl (view_tail hhead hop) rfl
    cases op with
    | addCircuit u =>
      have hu : u ≠ t := fun hu => hop (congrArg _ hu)
      refine htail.frame rfl ?_ rfl
      exact (view_answer .stopped u).trans (if_neg hu)
    | deleteCircuit name => exact htail
    | other => exact htail

/-- **Every event keeps every call in its stage.** -/
theorem at_step (h : s.At t ran gaveUp) (hstep : step setup s e = some s') :
    s'.After e t ran (gaveUp || e.givesUp t) := by
  cases e with
  | call u =>
    obtain ⟨⟨hphase, -⟩, ⟨⟩⟩ := ite_none_right_eq_some.mp hstep
    refine At.quiet ?_ rfl rfl
    refine h.setPhase fun hu => ?_
    subst hu
    have hstage := h.stage hphase
    split <;> exact hstage
  | cancel u =>
    cases hstep
    refine At.quiet ?_ rfl rfl
    exact h.frame rfl rfl rfl
  | send u =>
    obtain ⟨⟨hphase, -⟩, ⟨⟩⟩ := ite_none_right_eq_some.mp hstep
    refine At.quiet ?_ rfl rfl
    by_cases hu : u = t
    · subst hu
      obtain ⟨hview, rfl, rfl⟩ := h.stage hphase
      unfold At
      rw [setPhase_self]
      refine ⟨rfl, .inl ⟨rfl, .inl ?_⟩⟩
      simp only [view, TransportView.mk.injEq] at hview
      simp [view, setPhase, hview]
    · refine h.frame rfl ?_ (setPhase_other (Ne.symm hu) _)
      have hne : (MgmtOp.addCircuit u == MgmtOp.addCircuit t) = false := by simpa using hu
      simp [view, setPhase, count_singleton, hne]
  | ctxEnter u =>
    obtain ⟨⟨hphase, -⟩, ⟨⟩⟩ := ite_none_right_eq_some.mp hstep
    refine At.quiet ?_ rfl rfl
    refine h.setPhase fun hu => ?_
    subst hu
    have hstage := h.stage hphase
    exact hstage
  | doneEnter u =>
    obtain ⟨⟨hphase, -⟩, ⟨⟩⟩ := ite_none_right_eq_some.mp hstep
    refine At.quiet ?_ rfl rfl
    refine h.setPhase fun hu => ?_
    subst hu
    have hstage := h.stage hphase
    exact hstage
  | receive u =>
    refine At.quiet ?_ rfl rfl
    simp only [step] at hstep
    cases herr : s.errCh u with
    | none =>
      rw [herr] at hstep
      cases hstep
    | some a =>
      rw [herr] at hstep
      obtain ⟨hphase, ⟨⟩⟩ := ite_none_right_eq_some.mp hstep
      refine h.consume fun hu => ?_
      subst hu
      exact (h.stage hphase).receive herr
  | giveUp u =>
    obtain ⟨⟨hphase, -⟩, ⟨⟩⟩ := ite_none_right_eq_some.mp hstep
    by_cases hu : u = t
    · subst hu
      have hgives : (gaveUp || (MgmtEvent.giveUp u).givesUp u) = true := by simp [MgmtEvent.givesUp]
      show MgmtServer.At _ u ran _
      unfold At
      rw [setPhase_self, hgives]
      exact (h.stage hphase).giveUp
    · refine At.quiet ?_ rfl (decide_eq_false hu)
      exact h.setPhase fun hut => absurd hut hu
  | doneWait u =>
    obtain ⟨⟨hphase, hserve⟩, ⟨⟩⟩ := ite_none_right_eq_some.mp hstep
    refine At.quiet ?_ rfl rfl
    refine h.consume fun hu => ?_
    subst hu
    have hstage := h.stage hphase
    rw [hserve] at hstage ⊢
    exact hstage.doneWait
  | finish u =>
    refine At.quiet ?_ rfl rfl
    simp only [step] at hstep
    split at hstep
    · rename_i queued outcome hphase
      cases hstep
      by_cases hu : u = t
      · subst hu
        have hfinish := (h.stage hphase).finish
        unfold At
        rw [setPhase_self]
        split at hfinish
        · rename_i howes
          rw [if_pos howes, view_setPhase, view_close, if_pos rfl]
          exact hfinish
        · rename_i howes
          rw [if_neg howes]
          exact hfinish
      · refine At.setPhase ?_ fun hut => absurd hut hu
        split
        · exact h.frame rfl ((view_close .addCircuit u).trans (if_neg hu)) rfl
        · exact h
    all_goals cases hstep
  | enqueue op =>
    refine At.quiet ?_ rfl rfl
    cases op with
    | addCircuit u => cases hstep
    | deleteCircuit name =>
      obtain ⟨-, ⟨⟩⟩ := ite_none_right_eq_some.mp hstep
      exact h.frame rfl (by simp [view]) rfl
    | other =>
      obtain ⟨-, ⟨⟩⟩ := ite_none_right_eq_some.mp hstep
      exact h.frame rfl (by simp [view]) rfl
  | start =>
    obtain ⟨hserve, ⟨⟩⟩ := ite_none_right_eq_some.mp hstep
    refine At.quiet ?_ rfl rfl
    exact Stage.carry h (.of_closed (by rw [hserve]; rfl) (by rw [hserve]; exact nofun))
  | run op refused =>
    obtain ⟨⟨hserve, hhead⟩, ⟨⟩⟩ := ite_none_right_eq_some.mp hstep
    exact (Bool.or_false gaveUp).symm ▸ at_runOp refused h hserve hhead
  | stop =>
    obtain ⟨hserve, ⟨⟩⟩ := ite_none_right_eq_some.mp hstep
    refine At.quiet ?_ rfl rfl
    unfold At at h
    rw [hserve] at h
    exact h.carry .of_stop
  | drain op =>
    obtain ⟨⟨hserve, hhead⟩, ⟨⟩⟩ := ite_none_right_eq_some.mp hstep
    refine At.quiet ?_ rfl rfl
    exact at_refuseOp h hserve hhead
  | finishDrain =>
    obtain ⟨⟨hserve, -⟩, ⟨⟩⟩ := ite_none_right_eq_some.mp hstep
    refine At.quiet ?_ rfl rfl
    exact Stage.carry h (.of_closed (by rw [hserve]; rfl) (by rw [hserve]; exact nofun))
  | closeDone =>
    obtain ⟨hserve, ⟨⟩⟩ := ite_none_right_eq_some.mp hstep
    refine At.quiet ?_ rfl rfl
    exact Stage.carry h (.of_closed (by rw [hserve]; rfl) (by rw [hserve]; exact nofun))

/-- In some state of the run a circuit of the server ran on the transport. -/
def EverRan (setup : MgmtSetup T) (es : List (MgmtEvent T)) (t : T) : Prop :=
  ∃ pre s, pre <+: es ∧ run setup pre = some s ∧ t ∈ s.circuits

theorem everRan_concat (hrun : run setup (es ++ [e]) = some s) :
    EverRan setup (es ++ [e]) t ↔ EverRan setup es t ∨ t ∈ s.circuits := by
  constructor
  · rintro ⟨pre, s₀, hpre, hrun₀, hmem⟩
    rcases prefix_concat_iff.mp hpre with rfl | hpre
    · cases hrun.symm.trans hrun₀
      exact .inr hmem
    · exact .inl ⟨pre, s₀, hpre, hrun₀, hmem⟩
  · rintro (⟨pre, s₀, hpre, hrun₀, hmem⟩ | hmem)
    · exact ⟨pre, s₀, hpre.trans (prefix_append es [e]), hrun₀, hmem⟩
    · exact ⟨_, s, prefix_rfl, hrun, hmem⟩

/-- A circuit runs on the transport of a call only if the loop added it. -/
theorem MgmtServer.At.added_of_mem (h : s.At t ran gaveUp) (hmem : t ∈ s.circuits) :
    ran = some .added := by
  have hrunning : (s.view t).running ≠ 0 := fun h0 => count_eq_zero.mp h0 hmem
  rcases Stage.fate h with ⟨q, c, hv, -⟩ | ⟨hv | ⟨-, hv⟩, -⟩ | ⟨a, hr, hran⟩
  · exact absurd (by rw [hv]) hrunning
  · exact absurd (by rw [hv]) hrunning
  · exact absurd (by rw [hv]) hrunning
  · obtain ⟨-, ⟨-, h0, -⟩ | ⟨rfl, -⟩ | ⟨-, h0, -⟩⟩ := hran
    · exact absurd h0 hrunning
    · exact hr
    · exact absurd h0 hrunning

/-- **Where the transport of a call is after any run.** -/
theorem at_run (ht : t ∉ setup.startup) (hrun : run setup es = some s) :
    ∃ ran, s.At t ran (es.any (·.givesUp t)) ∧ ran.isSome = es.any (·.runs t) ∧
      (ran = some .added ↔ EverRan setup es t) := by
  induction es using reverseRecOn generalizing s with
  | nil =>
    cases hrun
    refine ⟨none, ⟨by simp [view, new, count_eq_zero.mpr ht], rfl, rfl⟩, rfl, nofun, ?_⟩
    rintro ⟨pre, s, hpre, hs, hmem⟩
    rw [prefix_nil.mp hpre] at hs
    cases hs
    exact absurd hmem ht
  | append_singleton es e ih =>
    rw [everRan_concat hrun, any_append, any_append, any_cons, any_cons, any_nil, any_nil,
      Bool.or_false, Bool.or_false]
    rw [run, foldl_concat] at hrun
    obtain ⟨s₁, hs₁, hstep⟩ := bind_eq_some_iff.mp hrun
    obtain ⟨ran, hat, hsome, hever⟩ := ih hs₁
    have hafter := at_step hat hstep
    rw [After] at hafter
    split at hafter
    · rename_i hruns
      obtain ⟨rfl, a, hat', hadded⟩ := hafter
      refine ⟨some a, hat', by simp [hruns], fun heq => .inr (hadded (Option.some.inj heq)), ?_⟩
      rintro (hbefore | hmem)
      · exact absurd (hever.mpr hbefore) nofun
      · exact hat'.added_of_mem hmem
    · rename_i hruns
      refine ⟨ran, hafter, by simp [hsome, hruns], fun heq => .inl (hever.mp heq), ?_⟩
      rintro (hbefore | hmem)
      · exact hever.mpr hbefore
      · exact hafter.added_of_mem hmem

end Runs

/-! ## Ownership -/

section Ownership

open MgmtServer

variable [DecidableEq T] {t : T}

/-- At most one circuit runs on the transport, which nobody closes before `shutdown` while it does;
and nobody closes it twice. -/
structure TransportOwned (setup : MgmtSetup T) (es : List (MgmtEvent T)) (s : MgmtServer T)
    (t : T) : Prop where
  one : s.circuits.count t ≤ 1
  running : t ∈ s.circuits → s.closed t = if s.serve.closed then [.shutdown] else []
  once : (s.closed t).length ≤ 1
  /-- A circuit that ran on the transport has left: `deleteCircuit` closed it. -/
  left : EverRan setup es t → t ∉ s.circuits → s.closed t = [.deleteCircuit]
  /-- None ever did: when the call returns `AddCircuit` has closed it, or the caller gave up an
  operation the loop did not run. -/
  never : ¬ EverRan setup es t → s.phase t = .returned →
    (es.any (·.givesUp t) = true → es.any (·.runs t) = true) → s.closed t = [.addCircuit]

/-- `Serve` and every call have returned. -/
def MgmtServer.Settled (s : MgmtServer T) : Prop :=
  s.serve = .done ∧ ∀ t, s.phase t = .absent ∨ s.phase t = .returned

/-- The loop ran every operation whose caller gave it up. -/
def AbandonedAreRun (setup : MgmtSetup T) (es : List (MgmtEvent T)) : Prop :=
  ∀ t ∉ setup.startup, es.any (·.givesUp t) = true → es.any (·.runs t) = true

/-- A transport no circuit ever ran on, with its call returned. -/
theorem MgmtServer.At.closed_of_never (h : s.At t ran gaveUp) (hphase : s.phase t = .returned)
    (hnever : ran ≠ some .added) (hruns : gaveUp = true → ran.isSome = true) :
    (s.view t).closed = [.addCircuit] := by
  rcases h.stage hphase with ⟨-, -, hv | ⟨-, hv⟩⟩ | ⟨rfl, rfl, -⟩ | ⟨a, rfl, -, hran⟩
  · rw [hv]
  · rw [hv]
  · exact absurd (hruns rfl) nofun
  · rcases hran with ⟨-, -, hc⟩ | ⟨rfl, -⟩ | ⟨rfl, -⟩
    · exact hc
    · exact absurd rfl hnever
    · exact absurd rfl hnever

/-- **In every stage the transport has one owner.** -/
theorem transportOwned_of_run (ht : t ∉ setup.startup) (hrun : MgmtServer.run setup es = some s) :
    TransportOwned setup es s t := by
  obtain ⟨ran, hat, hsome, hever⟩ := at_run ht hrun
  have hnever : ¬ EverRan setup es t → s.phase t = .returned →
      (es.any (·.givesUp t) = true → es.any (·.runs t) = true) → s.closed t = [.addCircuit] :=
    fun hnot hphase hruns => hat.closed_of_never hphase (mt hever.mp hnot) (hsome ▸ hruns)
  -- a transport no circuit runs on
  have hidle : ∀ {q err c}, s.view t = ⟨q, err, 0, c⟩ → (ran = some .added → c = [.deleteCircuit]) →
      c.length ≤ 1 → TransportOwned setup es s t := by
    intro q err c hv hleft hc
    simp only [view, TransportView.mk.injEq] at hv
    obtain ⟨-, -, hr, rfl⟩ := hv
    exact ⟨by omega, fun hmem => absurd hmem (count_eq_zero.mp hr), hc,
      fun hran _ => hleft (hever.mpr hran), hnever⟩
  rcases Stage.fate hat with ⟨q, c, hv, rfl, hc, -⟩ | ⟨hv | ⟨-, hv⟩, rfl, -⟩ | ⟨a, rfl, -, hran⟩
  · exact hidle hv nofun hc
  · exact hidle hv nofun (Nat.zero_le _)
  · exact hidle hv nofun (Nat.zero_le _)
  rcases hran with ⟨rfl, hr, hc⟩ | ⟨rfl, hr, hc⟩ | ⟨rfl, hr, hc⟩
  · exact hidle (TransportView.ext rfl rfl hr hc) nofun (Nat.le_refl _)
  · refine ⟨Nat.le_of_eq hr, fun _ => hc, ?_, fun _ hmem => ?_, hnever⟩
    · rw [show s.closed t = _ from hc]
      split <;> simp
    · exact absurd (count_pos_iff.mp (Nat.lt_of_lt_of_eq Nat.one_pos hr.symm)) hmem
  · exact hidle (TransportView.ext rfl rfl hr hc) (fun _ => rfl) (Nat.le_refl _)

/-- **What becomes of the transport of a call that has returned**, once `Serve` has. -/
theorem closed_iff_of_returned (h : s.At t ran gaveUp) (hdone : s.serve = .done)
    (hphase : s.phase t = .returned) :
    (s.closed t).length = 1 ↔ (gaveUp = true → ran.isSome = true) := by
  have hclosed : s.closed t = (s.view t).closed := rfl
  have hstage := h.stage hphase
  rw [hdone] at hstage
  rw [hclosed]
  rcases hstage with ⟨rfl, -, hv | ⟨-, hv⟩⟩ | ⟨rfl, rfl, hv | ⟨-, hv⟩⟩ | ⟨a, rfl, -, hran⟩
  · simp [hv]
  · simp [hv]
  · simp [hv]
  · simp [hv]
  · rcases hran with ⟨-, -, hc⟩ | ⟨-, -, hc⟩ | ⟨-, -, hc⟩
    · simp [hc]
    · simp [hc, ServePhase.closed]
    · simp [hc]

/-- **Every transport has one owner, and none is left open exactly if the loop ran the operations
that were given up.** In every state of every interleaving, a transport handed to `AddCircuit` on
which a circuit ran is closed by `deleteCircuit` or `shutdown`, not before, and every other one by
`AddCircuit` before the call returns, each once (`TransportOwned`); and once `Serve` and all calls
have returned it is closed, unless its caller gave up an operation the loop never ran. -/
theorem transport_owned_iff (hrun : MgmtServer.run setup es = some s) :
    ((∀ t ∉ setup.startup, TransportOwned setup es s t) ∧
      (s.Settled → ∀ t ∉ setup.startup, s.phase t = .returned → (s.closed t).length = 1)) ↔
    (s.Settled → AbandonedAreRun setup es) := by
  constructor
  · rintro ⟨-, hclosed⟩ hsettled t ht hgave
    obtain ⟨ran, hat, hsome, -⟩ := at_run ht hrun
    rcases hsettled.2 t with hphase | hphase
    · exact absurd ((hat.stage hphase).2.2.symm.trans hgave) nofun
    · rw [← hsome]
      exact (closed_iff_of_returned hat hsettled.1 hphase).mp (hclosed hsettled t ht hphase) hgave
  · intro hruns
    refine ⟨fun t ht => transportOwned_of_run ht hrun, fun hsettled t ht hphase => ?_⟩
    obtain ⟨ran, hat, hsome, -⟩ := at_run ht hrun
    exact (closed_iff_of_returned hat hsettled.1 hphase).mpr (hsome ▸ hruns hsettled t ht)

end Ownership

/-! ## Two runs -/

/-- One call and no circuit to begin with. -/
def oneCall : MgmtSetup Unit := ⟨fun _ => "eth0", []⟩

/-- The circuit is added, and the server stops. -/
def addedRun : List (MgmtEvent Unit) :=
  [.start, .call (), .send (), .run (.addCircuit ()) false, .receive (), .finish (), .stop,
    .finishDrain, .closeDone]

theorem transport_owned_added : (MgmtServer.run oneCall addedRun).isSome = true ∧
    ∀ s, MgmtServer.run oneCall addedRun = some s →
      ∀ t ∉ oneCall.startup, TransportOwned oneCall addedRun s t := by
  refine ⟨by decide, fun s hs => ((transport_owned_iff hs).mpr fun _ t _ hgave => ?_).1⟩
  cases t
  exact absurd hgave (by decide)

/-- The caller's context ends while its operation is queued, and the server stops before the loop
takes it. -/
def abandonedRun : List (MgmtEvent Unit) :=
  [.start, .call (), .send (), .cancel (), .giveUp (), .finish (), .stop, .drain (.addCircuit ()),
    .finishDrain, .closeDone]

/-- **A transport nobody closes**: the caller has gone, and `shutdown` answers an operation without
running it. -/
theorem abandoned_transport_stays_open :
    (MgmtServer.run oneCall abandonedRun).map (fun s => (s.serve, s.phase (), s.closed ())) =
      some (.done, .returned, []) := by
  decide

end Goisis.Server
