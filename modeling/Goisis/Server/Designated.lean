import Goisis.Lib.RunningMax
import Goisis.Server.OneCircuit
import Mathlib.Data.Fintype.EquivFin
import Mathlib.Data.Fintype.Lattice

/-!
# The designated intermediate system

`electDIS` (`pkg/server/dis.go`) compares this node with its Up neighbours by priority and SNPA and
writes the winner's LAN ID into `c.dis`. It is not run for every hello: `processLANHello` runs it
when an adjacency comes Up or goes down and when the priority, the SNPA or the LAN ID of an Up
neighbour changes, `dropAdjacencies` after each neighbour it removes.

Here the record is shown to be what an election would write at every moment (`DisCurrent`), from the
first change of an Up neighbour on; and on a LAN where every router knows every other, the records
agree.

* `disCurrent_electDIS` — what an election writes;
* `electsOrKeeps_onCircuit` — an event runs an election or changes nothing an election reads;
* `rival_lastHello` — what an election reads of a neighbour is its last accepted hello's;
* `dis_current` — the record along a run;
* `one_dis` — all routers of a LAN agree on one DIS.
-/

namespace Goisis.Server

open Lib Packet List Circuit Function

variable {p₁ p₂ : UInt8} {s₁ s₂ : SNPA} {c d : Circuit} {self : SystemID} {l l' : Level}
  {scan : AdjScan} {now : Int} {id : SystemID} {w : Adjacency} {src : SNPA} {h : LANHello}
  {s : NodeServer} {cn : String}

/-! ## Candidates -/

/-- The rank of a candidate: its priority, then its SNPA. -/
def candidateRank (priority : UInt8) (snpa : SNPA) : ℕ ×ₗ ℕ :=
  toLex (priority.toNat, bigEndian snpa.val)

theorem higherCandidate_iff :
    higherCandidate p₁ s₁ p₂ s₂ = true ↔ candidateRank p₂ s₂ < candidateRank p₁ s₁ := by
  have hlex : s₂.val < s₁.val ↔ bigEndian s₂.val < bigEndian s₁.val := Octets.lt_iff_bigEndian_lt
  unfold higherCandidate candidateRank
  rw [Prod.Lex.toLex_lt_toLex]
  by_cases hp : p₁ = p₂
  · simp [hp, hlex]
  · have hne : p₂.toNat ≠ p₁.toNat := fun h => hp (UInt8.toNat_inj.mp h.symm)
    simp [hp, hne, UInt8.lt_iff_toNat_lt]

/-- A rank tells the SNPA. -/
theorem snpa_of_candidateRank (h : candidateRank p₁ s₁ = candidateRank p₂ s₂) : s₁ = s₂ :=
  Octets.eq_of_bigEndian_eq (congrArg (fun r => (ofLex r).2) h)

/-- The rank of the candidate an election holds. -/
def Candidate.rank (x : Candidate) : ℕ ×ₗ ℕ := candidateRank x.priority x.snpa

/-- The rank of a neighbour. -/
def Adjacency.rank (a : Adjacency) : ℕ ×ₗ ℕ := candidateRank a.priority a.snpa

/-- A neighbour as a candidate. -/
def Adjacency.candidate (a : Adjacency) : Candidate := ⟨a.priority, a.snpa, false⟩

/-- The rank of this node on a circuit. -/
def Circuit.ownRank (c : Circuit) : ℕ ×ₗ ℕ := candidateRank c.cfg.disPriority c.cfg.localSNPA

/-- The loop of `electDIS` is a running maximum. -/
theorem foldl_against (l : List Adjacency) (best : Candidate) :
    some (l.foldl Candidate.against best) =
      (l.map Adjacency.candidate).foldl (keepBest Candidate.rank) (some best) := by
  induction l generalizing best with
  | nil => rfl
  | cons a l ih =>
    have hturn : keepBest Candidate.rank (some best) a.candidate = some (best.against a) := by
      unfold keepBest Candidate.against
      have hiff : (some best).all (fun x => decide (x.rank < a.candidate.rank)) =
          higherCandidate a.priority a.snpa best.priority best.snpa := by
        rw [Bool.eq_iff_iff, higherCandidate_iff]
        exact decide_eq_true_iff
      rw [hiff]
      split <;> rfl
    rw [foldl_cons, ih, map_cons, foldl_cons, hturn]

/-! ## What an election reads -/

/-- What an election reads of an Up neighbour. -/
structure Rival where
  priority : UInt8
  snpa : SNPA
  lanID : NodeID
deriving DecidableEq, Repr

def Rival.rank (r : Rival) : ℕ ×ₗ ℕ := candidateRank r.priority r.snpa

/-- A neighbour as a rival. -/
def Adjacency.rival (a : Adjacency) : Rival := ⟨a.priority, a.snpa, a.lanID⟩

variable {r : Rival}

namespace Circuit

/-- The neighbour of a system ID, if it is Up. -/
def rival (c : Circuit) (l : Level) (id : SystemID) : Option Rival :=
  (((c.adjs l).bind (·.lookup id)).filter (·.state = .up)).map (·.rival)

/-- The SNPAs of the Up neighbours are distinct, and distinct from ours. -/
structure SnpasApart (c : Circuit) (l : Level) : Prop where
  own : ∀ id r, c.rival l id = some r → r.snpa ≠ c.cfg.localSNPA
  each : ∀ id id' r r', c.rival l id = some r → c.rival l id' = some r' → r.snpa = r'.snpa →
    id = id'

/-- **The DIS record is current**: it names this node if this node is the best candidate, and is the
LAN ID the best candidate advertised if that is a neighbour that advertised one. -/
structure DisCurrent (c : Circuit) (sys : SystemID) (l : Level) : Prop where
  ours : c.SnpasApart l → (∀ id r, c.rival l id = some r → r.rank ≤ c.ownRank) →
    c.dis l = ⟨sys, c.pseudonodeID⟩
  theirs : c.SnpasApart l → ∀ id r, c.rival l id = some r → c.ownRank ≤ r.rank →
    (∀ id' r', c.rival l id' = some r' → r'.rank ≤ r.rank) → r.lanID ≠ zeroNodeID →
    c.dis l = r.lanID

variable {e : Circuit}

theorem mem_upAdjacencies {a : Adjacency} :
    a ∈ c.upAdjacencies l ↔ ∃ id, (c.adjs l).bind (·.lookup id) = some a ∧ a.state = .up := by
  unfold upAdjacencies
  cases c.adjs l with
  | none => simp
  | some m =>
    simp only [mem_filter, mem_map, beq_iff_eq, Option.bind_some, exists_and_right]
    refine and_congr_left fun _ => ⟨?_, ?_⟩
    · rintro ⟨⟨id, b⟩, hmem, rfl⟩
      exact ⟨id, AList.mem_lookup_iff.mpr hmem⟩
    · rintro ⟨id, hid⟩
      exact ⟨⟨id, a⟩, AList.mem_lookup_iff.mp hid, rfl⟩

theorem rival_eq_some :
    c.rival l id = some r ↔
      ∃ a, (c.adjs l).bind (·.lookup id) = some a ∧ a.state = .up ∧ a.rival = r := by
  unfold rival
  simp only [Option.map_eq_some_iff, Option.filter_eq_some_iff, decide_eq_true_eq, and_assoc]

/-- The best candidate of an election: this node, or an Up neighbour that outranks it. -/
theorem elected_spec (c : Circuit) (l : Level) (scan : AdjScan) :
    let best := (scan.candidates (c.upAdjacencies l)).foldl Candidate.against
      ⟨c.cfg.disPriority, c.cfg.localSNPA, true⟩
    (best = ⟨c.cfg.disPriority, c.cfg.localSNPA, true⟩ ∨
      ∃ a ∈ c.upAdjacencies l, best = a.candidate) ∧
      c.ownRank ≤ best.rank ∧ ∀ a ∈ c.upAdjacencies l, a.rank ≤ best.rank := by
  intro best
  obtain ⟨hfrom, hown, hle⟩ := foldl_keepBest_spec
    (foldl_against (scan.candidates (c.upAdjacencies l))
      ⟨c.cfg.disPriority, c.cfg.localSNPA, true⟩).symm
  refine ⟨hfrom.imp (fun h => (Option.some.inj h).symm) ?_, hown _ rfl, fun a ha => ?_⟩
  · intro hmem
    obtain ⟨a, ha, heq⟩ := mem_map.mp hmem
    exact ⟨a, (scan.candidates_perm _).mem_iff.mp ha, heq.symm⟩
  · exact hle a.candidate (mem_map_of_mem ((scan.candidates_perm _).mem_iff.mpr ha))

/-- This node stays the best candidate if no neighbour outranks it. -/
theorem elected_ours (h : ∀ a ∈ c.upAdjacencies l, a.rank ≤ c.ownRank) :
    (scan.candidates (c.upAdjacencies l)).foldl Candidate.against
      ⟨c.cfg.disPriority, c.cfg.localSNPA, true⟩ = ⟨c.cfg.disPriority, c.cfg.localSNPA, true⟩ := by
  refine Option.some.inj ((foldl_against _ _).trans (foldl_keepBest_of_le fun x hx => ?_))
  obtain ⟨a, ha, rfl⟩ := mem_map.mp hx
  exact h a ((scan.candidates_perm _).mem_iff.mp ha)

theorem dis_electDIS_ours (hlan : c.cfg.p2p = false)
    (h : ∀ a ∈ c.upAdjacencies l, a.rank ≤ c.ownRank) :
    (c.electDIS self l scan).dis l = ⟨self, c.pseudonodeID⟩ := by
  unfold electDIS
  rw [hlan]
  simp only [Bool.false_eq_true, if_false, elected_ours h, if_true]
  exact update_self ..

/-- The LAN ID of the winner is found by its SNPA. -/
theorem winningLANID_eq (hw : w ∈ c.upAdjacencies l)
    (hone : ∀ a ∈ c.upAdjacencies l, a.snpa = w.snpa → a = w) :
    c.winningLANID l w.snpa scan = w.lanID := by
  unfold winningLANID
  cases hf : (scan.holders (c.upAdjacencies l)).find? (·.snpa = w.snpa) with
  | none =>
    have hno := find?_eq_none.mp hf w ((scan.holders_perm _).mem_iff.mpr hw)
    exact absurd rfl (fun h => hno (decide_eq_true h))
  | some a =>
    have hmem : a ∈ c.upAdjacencies l :=
      (scan.holders_perm _).mem_iff.mp (mem_of_find?_eq_some hf)
    have hsnpa : a.snpa = w.snpa := by simpa using find?_some hf
    rw [hone a hmem hsnpa]
    rfl

theorem dis_electDIS_theirs (hlan : c.cfg.p2p = false) (hw : w ∈ c.upAdjacencies l)
    (hown : c.ownRank < w.rank) (hbest : ∀ a ∈ c.upAdjacencies l, a.rank ≤ w.rank)
    (hone : ∀ a ∈ c.upAdjacencies l, a.snpa = w.snpa → a = w) (hid : w.lanID ≠ zeroNodeID) :
    (c.electDIS self l scan).dis l = w.lanID := by
  obtain ⟨hfrom, -, hle⟩ := c.elected_spec l scan
  unfold electDIS
  rw [hlan]
  simp only [Bool.false_eq_true, if_false]
  generalize (scan.candidates (c.upAdjacencies l)).foldl Candidate.against
    ⟨c.cfg.disPriority, c.cfg.localSNPA, true⟩ = best at hfrom hle ⊢
  rcases hfrom with rfl | ⟨a, ha, rfl⟩
  · exact absurd (hle w hw) (not_le.mpr hown)
  -- the winner has the rank of `w`, and so its SNPA
  have hsnpa : a.candidate.snpa = w.snpa :=
    snpa_of_candidateRank (le_antisymm (hbest a ha) (hle w hw))
  have hlanID : c.winningLANID l a.candidate.snpa scan = w.lanID := by
    rw [hsnpa]
    exact winningLANID_eq hw hone
  rw [if_neg (by simp [Adjacency.candidate]), hlanID, if_pos hid]
  exact update_self ..

/-- An election writes nothing else. -/
theorem electDIS_eq (c : Circuit) (self : SystemID) (l : Level) (scan : AdjScan) :
    (c.electDIS self l scan).adjs = c.adjs ∧ (c.electDIS self l scan).cfg = c.cfg ∧
      (c.electDIS self l scan).pseudonodeID = c.pseudonodeID ∧
      ∀ l', l' ≠ l → (c.electDIS self l scan).dis l' = c.dis l' := by
  obtain ⟨lan, heq⟩ := c.dis_electDIS self l scan
  rw [heq]
  exact ⟨rfl, rfl, rfl, fun l' hl' => update_of_ne hl' ..⟩

/-- A record is as current as another with the same candidates. -/
theorem DisCurrent.congr (h : c.DisCurrent self l) (hcfg : d.cfg = c.cfg)
    (hoctet : d.pseudonodeID = c.pseudonodeID) (hdis : d.dis l = c.dis l)
    (hrival : ∀ id, d.rival l id = c.rival l id) : d.DisCurrent self l := by
  have hrank : d.ownRank = c.ownRank := by
    unfold ownRank
    rw [hcfg]
  have hapart : d.SnpasApart l → c.SnpasApart l := by
    intro hd
    refine ⟨fun id r hr => ?_, fun id id' r r' hr hr' => ?_⟩
    · rw [← hcfg]
      exact hd.own id r ((hrival id).trans hr)
    · exact hd.each id id' r r' ((hrival id).trans hr) ((hrival id').trans hr')
  refine ⟨fun hd hbest => ?_, fun hd id r hr hown hbest hid => ?_⟩
  · rw [hdis, hoctet]
    refine h.ours (hapart hd) fun id r hr => ?_
    rw [← hrank]
    exact hbest id r ((hrival id).trans hr)
  · rw [hdis]
    refine h.theirs (hapart hd) id r ((hrival id).symm.trans hr) (hrank ▸ hown)
      (fun id' r' hr' => ?_) hid
    exact hbest id' r' ((hrival id').trans hr')

/-- **An election leaves the record current.** -/
theorem disCurrent_electDIS (c : Circuit) (self : SystemID) (l : Level) (scan : AdjScan)
    (hlan : c.cfg.p2p = false) : (c.electDIS self l scan).DisCurrent self l := by
  obtain ⟨hadjs, hcfg, hoctet, -⟩ := c.electDIS_eq self l scan
  have hrival : ∀ id, (c.electDIS self l scan).rival l id = c.rival l id := by
    intro id
    unfold rival
    rw [hadjs]
  have hrank : (c.electDIS self l scan).ownRank = c.ownRank := by
    unfold ownRank
    rw [hcfg]
  refine ⟨fun _ hbest => ?_, fun hapart id r hr hown hbest hid => ?_⟩
  · rw [hoctet]
    refine dis_electDIS_ours hlan fun a ha => ?_
    obtain ⟨id, hlook, hup⟩ := mem_upAdjacencies.mp ha
    have hle := hbest id a.rival ((hrival id).trans (rival_eq_some.mpr ⟨a, hlook, hup, rfl⟩))
    rwa [hrank] at hle
  · obtain ⟨w, hlook, hup, rfl⟩ := rival_eq_some.mp ((hrival id).symm.trans hr)
    have hw : w ∈ c.upAdjacencies l := mem_upAdjacencies.mpr ⟨id, hlook, hup⟩
    have hapart' : ∀ a ∈ c.upAdjacencies l, a.snpa = w.snpa → a = w := by
      intro a ha hsnpa
      obtain ⟨id', hlook', hup'⟩ := mem_upAdjacencies.mp ha
      have hsame := hapart.each id' id a.rival w.rival
        ((hrival id').trans (rival_eq_some.mpr ⟨a, hlook', hup', rfl⟩)) hr hsnpa
      rw [hsame] at hlook'
      exact Option.some.inj (hlook'.symm.trans hlook)
    refine dis_electDIS_theirs hlan hw ?_ (fun a ha => ?_) hapart' hid
    · rw [hrank] at hown
      refine lt_of_le_of_ne hown fun heq => ?_
      have hsnpa : c.cfg.localSNPA = w.snpa := snpa_of_candidateRank heq
      exact hapart.own id w.rival hr (by rw [hcfg]; exact hsnpa.symm)
    · obtain ⟨id', hlook', hup'⟩ := mem_upAdjacencies.mp ha
      exact hbest id' a.rival ((hrival id').trans (rival_eq_some.mpr ⟨a, hlook', hup', rfl⟩))

/-! ## One event -/

/-- Between two states of a circuit an election was run at a level, or nothing an election reads or
writes there changed. -/
def ElectsOrKeeps (c d : Circuit) (self : SystemID) (l : Level) : Prop :=
  d.cfg = c.cfg ∧ d.pseudonodeID = c.pseudonodeID ∧
    ((d.dis l = c.dis l ∧ ∀ id, d.rival l id = c.rival l id) ∨ d.DisCurrent self l)

theorem ElectsOrKeeps.refl (c : Circuit) : c.ElectsOrKeeps c self l :=
  ⟨rfl, rfl, .inl ⟨rfl, fun _ => rfl⟩⟩

theorem ElectsOrKeeps.trans (h : c.ElectsOrKeeps d self l) (h' : d.ElectsOrKeeps e self l) :
    c.ElectsOrKeeps e self l := by
  obtain ⟨hcfg, hoctet, hkeep⟩ := h
  obtain ⟨hcfg', hoctet', hkeep'⟩ := h'
  refine ⟨hcfg'.trans hcfg, hoctet'.trans hoctet, ?_⟩
  rcases hkeep' with ⟨hdis', hrival'⟩ | hcurrent
  · rcases hkeep with ⟨hdis, hrival⟩ | hcurrent
    · exact .inl ⟨hdis'.trans hdis, fun id => (hrival' id).trans (hrival id)⟩
    · exact .inr (hcurrent.congr hcfg' hoctet' hdis' hrival')
  · exact .inr hcurrent

/-- Adjacencies changed at one level, followed by an election there. -/
theorem electsOrKeeps_electDIS {adjs : Level → Option (Map SystemID Adjacency)}
    (hlan : c.cfg.p2p = false) (hadjs : ∀ l', l' ≠ l → adjs l' = c.adjs l') (l' : Level) :
    c.ElectsOrKeeps ({ c with adjs := adjs }.electDIS self l scan) self l' := by
  obtain ⟨hkept, hcfg, hoctet, hother⟩ := { c with adjs := adjs }.electDIS_eq self l scan
  refine ⟨hcfg, hoctet, ?_⟩
  by_cases hl : l' = l
  · rw [hl]
    exact .inr (disCurrent_electDIS { c with adjs := adjs } self l scan hlan)
  refine .inl ⟨hother l' hl, fun id => ?_⟩
  unfold rival
  rw [hkept]
  show Option.map _ (Option.filter _ ((adjs l').bind _)) = _
  rw [hadjs l' hl]

theorem electsOrKeeps_dropNeighbor {r : Heard} (hlan : r.circuit.cfg.p2p = false) (level : Level)
    (id : SystemID) :
    r.circuit.ElectsOrKeeps (dropNeighbor self level scan now r id).circuit self l := by
  unfold dropNeighbor
  split
  · exact .refl _
  · exact electsOrKeeps_electDIS hlan (fun l' hl' => update_of_ne hl' ..) l

theorem electsOrKeeps_dropAdjacencies (hlan : c.cfg.p2p = false) (drop : Adjacency → Bool) :
    c.ElectsOrKeeps (c.dropAdjacencies self drop scan now).circuit self l := by
  unfold dropAdjacencies
  rw [hlan]
  refine foldlRecOn (motive := fun r : Heard => c.ElectsOrKeeps r.circuit self l) _ _ (.refl c)
    fun r hr level _ => ?_
  refine foldlRecOn (motive := fun r : Heard => c.ElectsOrKeeps r.circuit self l) _ _ hr
    fun r hr id _ => ?_
  exact hr.trans (electsOrKeeps_dropNeighbor (by rw [hr.1]; exact hlan) level id)

/-- A hello that runs no election changes nothing an election reads. -/
theorem rival_stored (hlevel : (c.adjs h.level).isSome = true)
    (hkeep : ((((c.lanNeighbor h).state == .up) != ((c.lanHeard src h now).state == .up)) ||
      ((c.lanHeard src h now).state == .up &&
        (c.lanNeighbor h).electionDiffers (c.lanHeard src h now))) = false) (id : SystemID) :
    { c with
      adjs := onLevel c.adjs h.level (·.insert h.sourceID (c.lanHeard src h now)) }.rival l id =
      c.rival l id := by
  unfold rival
  rw [lookup_onLevel_insert]
  by_cases hat : l = h.level ∧ id = h.sourceID
  · obtain ⟨rfl, rfl⟩ := hat
    rw [if_pos ⟨rfl, rfl, hlevel⟩]
    rw [Bool.or_eq_false_iff, bne_eq_false_iff_eq, Bool.and_eq_false_iff] at hkeep
    obtain ⟨hsame, hfields⟩ := hkeep
    generalize c.lanHeard src h now = after at hsame hfields ⊢
    unfold lanNeighbor at hsame hfields
    cases hlook : (c.adjs h.level).bind (·.lookup h.sourceID) with
    | none =>
      rw [hlook] at hsame
      have hdown : ¬ after.state = .up := by
        intro hup
        rw [hup] at hsame
        cases hsame
      simp [Option.filter, hdown]
    | some before =>
      rw [hlook, Option.getD_some] at hsame hfields
      by_cases hup : after.state = .up
      · rw [hup] at hsame hfields
        have hbefore : before.state = .up := eq_of_beq hsame
        have hdiffers := hfields.resolve_left (by decide)
        unfold Adjacency.electionDiffers at hdiffers
        simp only [Bool.or_eq_false_iff, bne_eq_false_iff_eq] at hdiffers
        obtain ⟨⟨hpriority, hsnpa⟩, hlanID⟩ := hdiffers
        simp [Option.filter, hup, hbefore, Adjacency.rival, hpriority, hsnpa, hlanID]
      · have hbefore : ¬ before.state = .up := by
          intro hb
          rw [hb] at hsame
          exact hup (eq_of_beq hsame.symm)
        simp [Option.filter, hup, hbefore]
  · rw [if_neg fun hc => hat ⟨hc.1, hc.2.1⟩]

theorem electsOrKeeps_processLANHello (areas : List Bytes) (src : SNPA) (h : LANHello) :
    c.ElectsOrKeeps (c.processLANHello self areas src h now scan).circuit self l := by
  unfold processLANHello
  split
  · exact .refl c
  rename_i hadmits
  simp only
  have hall : c.admitsLAN self areas h = true := by simpa using hadmits
  unfold admitsLAN at hall
  simp only [Bool.and_eq_true, Bool.not_eq_true'] at hall
  obtain ⟨⟨⟨⟨⟨hlan, -⟩, -⟩, hlevel⟩, -⟩, -⟩ := hall
  split
  · exact electsOrKeeps_electDIS hlan (fun l' hl' => update_of_ne hl' ..) l
  · rename_i hnot
    exact ⟨rfl, rfl, .inl ⟨rfl, rival_stored hlevel (Bool.not_eq_true _ ▸ hnot)⟩⟩

/-- **An event runs an election or changes nothing an election reads.** -/
theorem electsOrKeeps_onCircuit (hlan : c.cfg.p2p = false) (ev : NodeEvent) (s : NodeServer)
    (cn : String) : c.ElectsOrKeeps (ev.onCircuit s now cn c) s.systemID l := by
  have hlink (down : Bool) : c.ElectsOrKeeps { c with linkDown := down } s.systemID l :=
    ⟨rfl, rfl, .inl ⟨rfl, fun _ => rfl⟩⟩
  have hstep := onCircuit_step ev s now cn c
  generalize ev.onCircuit s now cn c = d at hstep
  cases hstep with
  | link down => exact hlink down
  | drop down =>
    have hdown : { c with linkDown := down }.cfg.p2p = false := hlan
    exact (hlink down).trans (electsOrKeeps_dropAdjacencies hdown _)
  | lanHello => exact electsOrKeeps_processLANHello _ _ _
  | p2pHello =>
    -- a point-to-point hello on a LAN is dropped
    unfold processP2PHello admitsP2P
    rw [hlan]
    exact .refl c

/-- Circuits that differ in flags and addresses only. -/
theorem electsOrKeeps_of_bare (h : c.ElectsOrKeeps d self l) (hbare : e.bare = d.bare) :
    (e.cfg.p2p = c.cfg.p2p) ∧
      ((∀ id, e.rival l id = c.rival l id) ∧ (c.DisCurrent self l → e.DisCurrent self l) ∨
        e.DisCurrent self l) := by
  have hread : ∀ x : Circuit, x.bare.DisCurrent self l ↔ x.DisCurrent self l := fun x =>
    ⟨fun hx => ⟨fun ha => hx.ours ⟨ha.own, ha.each⟩, fun ha => hx.theirs ⟨ha.own, ha.each⟩⟩,
      fun hx => ⟨fun ha => hx.ours ⟨ha.own, ha.each⟩, fun ha => hx.theirs ⟨ha.own, ha.each⟩⟩⟩
  have hrivals : ∀ id, e.rival l id = d.rival l id := fun id =>
    show e.bare.rival l id = d.bare.rival l id by rw [hbare]
  have hp2p : e.cfg.p2p = d.cfg.p2p := show e.bare.cfg.p2p = d.bare.cfg.p2p by rw [hbare]
  have hcurrent : d.DisCurrent self l → e.DisCurrent self l := by
    intro hd
    rw [← hread, hbare, hread]
    exact hd
  obtain ⟨hcfg, hoctet, hkeep⟩ := h
  refine ⟨by rw [hp2p, hcfg], ?_⟩
  rcases hkeep with ⟨hdis, hrival⟩ | hnew
  · exact .inl ⟨fun id => (hrivals id).trans (hrival id),
      fun hc => hcurrent (hc.congr hcfg hoctet hdis hrival)⟩
  · exact .inr (hcurrent hnew)

end Circuit

/-! ## The record of a neighbour -/

/-- What an election reads of a hello. -/
def LANHello.rival (src : SNPA) (h : LANHello) : Rival := ⟨h.priority, src, h.lanID⟩

namespace Circuit

/-- An event brings the circuit a LAN hello that passes every check. -/
def Accepts (c : Circuit) (s : NodeServer) (cn : String) (ev : NodeEvent) (src : SNPA)
    (h : LANHello) : Prop :=
  ∃ frame jitter scan, ev = .rx cn frame jitter scan ∧ frame.src = src ∧ c.linkDown = false ∧
    decodePDU (trimToPDULength frame.pdu) = .ok (.lanHello h) ∧
    c.helloAuthOK s.hmac (trimToPDULength frame.pdu) h.pduType = true ∧
    c.admitsLAN s.systemID s.areaAddrs h = true

theorem rival_lanHeard (src : SNPA) (h : LANHello) :
    (c.lanHeard src h now).rival = LANHello.rival src h := by
  unfold lanHeard Adjacency.noteRestart
  simp only
  split
  · rfl
  · split <;> rfl

theorem rival_electDIS : (c.electDIS self l' scan).rival l id = c.rival l id := by
  unfold rival
  rw [(c.electDIS_eq self l' scan).1]

/-- Neighbours that are dropped leave the others as they were. -/
theorem rival_of_dropAdjacencies (hlan : c.cfg.p2p = false) {drop : Adjacency → Bool}
    (h : (c.dropAdjacencies self drop scan now).circuit.rival l id = some r) :
    c.rival l id = some r := by
  revert h
  unfold dropAdjacencies
  rw [hlan, if_neg Bool.false_ne_true]
  refine foldlRecOn (motive := fun x : Heard => x.circuit.rival l id = some r →
    c.rival l id = some r)
    _ _ (fun h => h) fun x hx level _ => ?_
  refine foldlRecOn (motive := fun x : Heard => x.circuit.rival l id = some r →
    c.rival l id = some r)
    _ _ hx fun x hx gone _ h => hx ?_
  unfold dropNeighbor at h
  split at h
  · exact h
  rw [rival_electDIS, rival_eq_some] at h
  obtain ⟨a, hlook, hup⟩ := h
  rw [lookup_onLevel_erase] at hlook
  split at hlook
  · cases hlook
  · exact rival_eq_some.mpr ⟨a, hlook, hup⟩

/-- A hello that is accepted is recorded for its sender and for nobody else. -/
theorem rival_processLANHello {areas : List Bytes} (now : Int) (scan : AdjScan)
    (hadm : c.admitsLAN self areas h = true) :
    (c.processLANHello self areas src h now scan).circuit.rival l id =
      if l = h.level ∧ id = h.sourceID then
        if c.lanState src h = .up then some (LANHello.rival src h) else none
      else c.rival l id := by
  have hlevel : (c.adjs h.level).isSome = true := by
    unfold admitsLAN at hadm
    simp only [Bool.and_eq_true] at hadm
    exact hadm.1.1.2
  have helect (b : Bool) (d : Circuit) :
      (if b = true then d.electDIS self h.level scan else d).rival l id = d.rival l id := by
    cases b with
    | false => rfl
    | true => exact rival_electDIS
  unfold processLANHello
  rw [hadm]
  simp only [Bool.not_true, Bool.false_eq_true, if_false]
  rw [helect]
  unfold rival
  rw [lookup_onLevel_insert]
  by_cases hat : l = h.level ∧ id = h.sourceID
  · rw [if_pos hat, if_pos ⟨hat.1, hat.2, hlevel⟩]
    have hstate : (c.lanHeard src h now).state = c.lanState src h := rfl
    by_cases hup : c.lanState src h = .up
    · simp [Option.filter, hstate, hup, rival_lanHeard]
    · simp [Option.filter, hstate, hup]
  · rw [if_neg hat, if_neg fun hc => hat ⟨hc.1, hc.2.1⟩]

/-- **What an event leaves recorded of a neighbour** is what the hello it brings says, or what was
recorded before it. -/
theorem rival_onCircuit {ev : NodeEvent} (hlan : c.cfg.p2p = false)
    (hr : (ev.onCircuit s now cn c).rival l id = some r) :
    (∃ src h, c.Accepts s cn ev src h ∧ h.level = l ∧ h.sourceID = id ∧ r = LANHello.rival src h) ∨
      c.rival l id = some r ∧
        ∀ src h, c.Accepts s cn ev src h → ¬ (h.level = l ∧ h.sourceID = id) := by
  by_cases hacc : ∃ src h, c.Accepts s cn ev src h
  · obtain ⟨src, h, haccept⟩ := hacc
    obtain ⟨frame, jitter, scan, rfl, rfl, hup, hpdu, hauth, hadm⟩ := haccept
    have hrival : (NodeEvent.onCircuit (.rx cn frame jitter scan) s now cn c).rival l id =
        if l = h.level ∧ id = h.sourceID then
          if c.lanState frame.src h = .up then some (LANHello.rival frame.src h) else none
        else c.rival l id := by
      rw [← rival_processLANHello now scan hadm]
      simp [NodeEvent.onCircuit, afterFrame, hup, hpdu, hearHello, hauth, Except.toOption]
    rw [hrival] at hr
    split at hr
    · rename_i hat
      obtain ⟨-, hof⟩ := (Option.ite_none_right_eq_some).mp hr
      exact .inl ⟨frame.src, h, ⟨frame, jitter, scan, rfl, rfl, hup, hpdu, hauth, hadm⟩, hat.1.symm,
        hat.2.symm, (Option.some.inj hof).symm⟩
    · rename_i hat
      refine .inr ⟨hr, ?_⟩
      rintro src' h' ⟨frame', _, _, heq, -, -, hpdu', -⟩ ⟨hl, hid⟩
      cases heq
      cases hpdu.symm.trans hpdu'
      exact hat ⟨hl.symm, hid.symm⟩
  · have hno : ∀ src h, ¬ c.Accepts s cn ev src h := fun src h ha => hacc ⟨src, h, ha⟩
    refine .inr ⟨?_, fun src h ha => absurd ha (hno src h)⟩
    have hstep := onCircuit_step ev s now cn c
    generalize ev.onCircuit s now cn c = d at hr hstep
    cases hstep with
    | link => exact hr
    | drop down =>
      have hdown : { c with linkDown := down }.cfg.p2p = false := hlan
      have hbefore := rival_of_dropAdjacencies hdown hr
      exact hbefore
    | lanHello frame jitter scan h hev hup hpdu hauth =>
      have hadm : c.admitsLAN s.systemID s.areaAddrs h = false := by
        by_contra hadm
        exact hno frame.src h ⟨frame, jitter, scan, hev, rfl, hup, hpdu, hauth, by simpa using hadm⟩
      unfold processLANHello at hr
      rw [hadm] at hr
      exact hr
    | p2pHello =>
      unfold processP2PHello admitsP2P at hr
      rw [hlan] at hr
      exact hr

end Circuit

/-! ## Runs -/

section Runs

variable {o : NodeOptions} {s₀ : NodeServer}

/-- One event on a LAN that stays. -/
theorem elects_exec (h : newNodeServer o = .ok s₀) (es : List (Int × NodeEvent))
    (e : Int × NodeEvent) (hc : (s₀.after es).circuitNamed cn = some c) (hlan : c.cfg.p2p = false)
    (hstays : e.2.deletes cn = false) :
    ∃ d, (s₀.after (es ++ [e])).circuitNamed cn = some d ∧ d.cfg.p2p = false ∧
      ((∀ id, d.rival l id = c.rival l id) ∧
        (c.DisCurrent s₀.systemID l → d.DisCurrent s₀.systemID l) ∨
        d.DisCurrent s₀.systemID l) := by
  have hbare : (s₀.after (es ++ [e])).bareAt cn =
      some (e.2.onCircuit (s₀.after es) e.1 cn c).bare := by
    rw [after_concat]
    exact bareAt_exec (namesApart_after h es) hc hstays
  obtain ⟨d, hd, hsame⟩ := Option.map_eq_some_iff.mp hbare
  have hstep : c.ElectsOrKeeps (e.2.onCircuit (s₀.after es) e.1 cn c) s₀.systemID l := by
    rw [← systemID_after h es]
    exact electsOrKeeps_onCircuit hlan e.2 (s₀.after es) cn
  obtain ⟨hp2p, hkeep⟩ := electsOrKeeps_of_bare hstep hsame
  exact ⟨d, hd, hp2p.trans hlan, hkeep⟩

/-- **The DIS record is current**: once an adjacency of a LAN changed into or out of Up at a level,
the record of that level is current after every event, for as long as the circuit is there. -/
theorem dis_current (h : newNodeServer o = .ok s₀) (before : List (Int × NodeEvent))
    (e : Int × NodeEvent) (since : List (Int × NodeEvent))
    (hc : (s₀.after before).circuitNamed cn = some c) (hlan : c.cfg.p2p = false)
    (hstays : ∀ x ∈ e :: since, x.2.deletes cn = false)
    (hd : (s₀.after (before ++ [e])).circuitNamed cn = some d) (id : SystemID)
    (hchange : (d.rival l id).isSome ≠ (c.rival l id).isSome) :
    ∃ c', (s₀.after (before ++ e :: since)).circuitNamed cn = some c' ∧
      c'.DisCurrent s₀.systemID l := by
  -- the induction carries the record from the change on
  suffices hrun : ∃ c', (s₀.after (before ++ e :: since)).circuitNamed cn = some c' ∧
      c'.cfg.p2p = false ∧ c'.DisCurrent s₀.systemID l by
    obtain ⟨c', hc', -, hcurrent⟩ := hrun
    exact ⟨c', hc', hcurrent⟩
  induction since using reverseRecOn with
  | nil =>
    obtain ⟨c', hc', hp2p, hkeep⟩ :=
      elects_exec (l := l) h before e hc hlan (hstays e mem_cons_self)
    obtain rfl : c' = d := Option.some.inj (hc'.symm.trans hd)
    refine ⟨c', hc', hp2p, ?_⟩
    rcases hkeep with ⟨hsame, -⟩ | hcurrent
    · exact absurd (congrArg Option.isSome (hsame id)) hchange
    · exact hcurrent
  | append_singleton since x ih =>
    obtain ⟨x₁, hx₁, hp2p, hcurrent⟩ := ih fun y hy => hstays y (by
      rcases mem_cons.mp hy with rfl | hy
      · exact mem_cons_self
      · exact mem_cons_of_mem _ (mem_append_left _ hy))
    have hx : x.2.deletes cn = false := hstays x (by simp)
    obtain ⟨x₂, hx₂, hp2p', hkeep⟩ := elects_exec (l := l) h (before ++ e :: since) x hx₁ hp2p hx
    refine ⟨x₂, ?_, hp2p', ?_⟩
    · rw [← cons_append, ← append_assoc]
      exact hx₂
    · rcases hkeep with ⟨-, hkept⟩ | hnew
      · exact hkept hcurrent
      · exact hnew

/-- In a run the circuit accepted a hello that says `r` from a neighbour, and none from it since. -/
def LastHello (s₀ : NodeServer) (cn : String) (l : Level) (id : SystemID) (r : Rival)
    (es : List (Int × NodeEvent)) : Prop :=
  ∃ before e since c src hello, es = before ++ e :: since ∧
    (s₀.after before).circuitNamed cn = some c ∧ c.Accepts (s₀.after before) cn e.2 src hello ∧
    hello.level = l ∧ hello.sourceID = id ∧ r = LANHello.rival src hello ∧
    ∀ mid e' rest c' src' hello', since = mid ++ e' :: rest →
      (s₀.after (before ++ e :: mid)).circuitNamed cn = some c' →
      c'.Accepts (s₀.after (before ++ e :: mid)) cn e'.2 src' hello' →
      ¬ (hello'.level = l ∧ hello'.sourceID = id)

/-- **The record of an Up neighbour is its last accepted hello's.** -/
theorem rival_lastHello (h : newNodeServer o = .ok s₀) (es : List (Int × NodeEvent))
    (hc : (s₀.after es).circuitNamed cn = some c) (hlan : c.cfg.p2p = false)
    (hr : c.rival l id = some r) : LastHello s₀ cn l id r es := by
  refine circuit_induction (P := fun es c => c.cfg.p2p = false → c.rival l id = some r →
    LastHello s₀ cn l id r es) h cn ?_ ?_ ?_ es hc hlan hr
  · intro es c d hbare ih hlan hr
    have hp2p : d.cfg.p2p = c.cfg.p2p := show d.bare.cfg.p2p = c.bare.cfg.p2p by rw [hbare]
    have hrival : d.rival l id = c.rival l id := show d.bare.rival l id = c.bare.rival l id by
      rw [hbare]
    exact ih (hp2p ▸ hlan) (hrival ▸ hr)
  · intro es cfg pn ext _ hr
    obtain ⟨a, hlook, -⟩ := rival_eq_some.mp hr
    by_cases hl : cfg.levelSet.has l = true
    · simp [newCircuit, emptyMaps, hl] at hlook
    · simp [newCircuit, emptyMaps, hl] at hlook
  · intro es now ev c hc _ ih hlan hr
    have hp2p : c.cfg.p2p = false :=
      (congrArg (fun x : Circuit => x.cfg.p2p) (shell_onCircuit ev c)).symm.trans hlan
    rcases rival_onCircuit hp2p hr with ⟨src, hello, hacc, hl, hid, rfl⟩ | ⟨hkept, hno⟩
    · refine ⟨es, (now, ev), [], c, src, hello, rfl, hc, hacc, hl, hid, rfl, ?_⟩
      intro mid e' rest c' src' hello' hnil
      simp at hnil
    · obtain ⟨before, e, since, c₀, src, hello, rfl, hc₀, hacc, hl, hid, rfl, hsince⟩ :=
        ih hp2p hkept
      refine ⟨before, e, since ++ [(now, ev)], c₀, src, hello, by simp, hc₀, hacc, hl, hid, rfl, ?_⟩
      intro mid e' rest c' src' hello' hsplit hc' hacc'
      -- the later hello is the last event, or one of the run before it
      rcases eq_nil_or_concat' rest with rfl | ⟨rest, x, rfl⟩
      · obtain ⟨rfl, hlast⟩ := append_inj' hsplit rfl
        cases hlast
        cases hc.symm.trans hc'
        exact hno src' hello' hacc'
      · rw [← cons_append, ← append_assoc] at hsplit
        obtain ⟨rfl, -⟩ := append_inj' hsplit rfl
        exact hsince mid e' rest c' src' hello' rfl hc' hacc'

/-- A router with a higher SNPA that has heard this node says hello, as the DIS with an octet. -/
def preemptingHello (octet : UInt8) : NodeEvent :=
  .rx "eth0" ⟨octets6 0 0 0 0 0 2,
    (PDU.serialize
      (.lanHello ⟨.level1, 1, octets6 0 0 0 0 0 2, 30, 64, ⟨octets6 0 0 0 0 0 2, octet⟩,
    [.areaAddresses [[0x49]], .isNeighbors [Octets.zero 6]]⟩)).toOption.getD []⟩ 0 .inOrder

/-- It stays, and says hello with another octet. -/
def renumbered : List (Int × NodeEvent) :=
  [(second, .housekeeping .inOrder ⟨fun _ _ => [], fun _ _ => [], fun _ _ => false⟩ fun _ _ => 0),
    (2 * second, preemptingHello 9)]

/-- It comes Up with the first hello; the second changes the record. -/
def preempted : Bool :=
  match newNodeServer (plainNode [ethernet "eth0" false 10]) with
  | .error _ => false
  | .ok s =>
    ((s.after []).circuitNamed "eth0").any (fun c => !c.cfg.p2p &&
      ((s.after [(0, preemptingHello 7)]).circuitNamed "eth0").any fun d =>
        d.dis .level1 == ⟨octets6 0 0 0 0 0 2, 7⟩ &&
        (d.rival .level1 (octets6 0 0 0 0 0 2)).isSome !=
          (c.rival .level1 (octets6 0 0 0 0 0 2)).isSome) &&
    ((s.after ((0, preemptingHello 7) :: renumbered)).circuitNamed "eth0").any
      (·.dis .level1 == ⟨octets6 0 0 0 0 0 2, 9⟩)

theorem dis_current_preempted :
    ∃ s₀ c, newNodeServer (plainNode [ethernet "eth0" false 10]) = .ok s₀ ∧
    (s₀.after ((0, preemptingHello 7) :: renumbered)).circuitNamed "eth0" = some c ∧
    c.DisCurrent s₀.systemID .level1 ∧ c.dis .level1 = ⟨octets6 0 0 0 0 0 2, 9⟩ := by
  have hrun : preempted = true := by decide +kernel
  unfold preempted at hrun
  cases hs : newNodeServer (plainNode [ethernet "eth0" false 10]) with
  | error e =>
    rw [hs] at hrun
    cases hrun
  | ok s₀ =>
    rw [hs] at hrun
    obtain ⟨hbefore, hlast⟩ := (Bool.and_eq_true _ _).mp hrun
    obtain ⟨c, hc, hboth⟩ := (Option.any_eq_true _ _).mp hbefore
    obtain ⟨hlan, hlater⟩ := (Bool.and_eq_true _ _).mp hboth
    obtain ⟨d, hd, hcame⟩ := (Option.any_eq_true _ _).mp hlater
    obtain ⟨-, hchange⟩ := (Bool.and_eq_true _ _).mp hcame
    obtain ⟨c', hc', hcurrent⟩ := dis_current hs [] (0, preemptingHello 7) renumbered hc
      (by simpa using hlan) (by simp [renumbered, preemptingHello, NodeEvent.deletes]) hd
      (octets6 0 0 0 0 0 2) (bne_iff_ne.mp hchange)
    obtain ⟨c'', hc'', hdis⟩ := (Option.any_eq_true _ _).mp hlast
    obtain rfl : c' = c'' := Option.some.inj (hc'.symm.trans hc'')
    exact ⟨s₀, c', rfl, hc', hcurrent, eq_of_beq hdis⟩

end Runs

/-! ## The routers of a LAN -/

/-- A router on a LAN. -/
structure LanRouter where
  sys : SystemID
  circuit : Circuit

/-- What the other routers read of a router: its priority, its SNPA and the LAN ID it advertises. -/
def LanRouter.advertised (x : LanRouter) (l : Level) : Rival :=
  ⟨x.circuit.cfg.disPriority, x.circuit.cfg.localSNPA, x.circuit.dis l⟩

section Agreement

variable {n : ℕ} {x : Fin n → LanRouter} {scan : Fin n → AdjScan}

/-- The routers of one LAN: each has every other as an Up neighbour, recorded as it is now. -/
structure OnLAN (x : Fin n → LanRouter) (l : Level) : Prop where
  lan : ∀ i, (x i).circuit.cfg.p2p = false
  systems : Function.Injective fun i => (x i).sys
  snpas : Function.Injective fun i => (x i).circuit.cfg.localSNPA
  octets : ∀ i, (x i).circuit.pseudonodeID ≠ 0
  neighbors : ∀ i id r, (x i).circuit.rival l id = some r ↔
    ∃ j, j ≠ i ∧ id = (x j).sys ∧ r = (x j).advertised l

theorem OnLAN.snpasApart (h : OnLAN x l) (i : Fin n) : (x i).circuit.SnpasApart l := by
  refine ⟨fun id r hr hown => ?_, fun id id' r r' hr hr' hsnpa => ?_⟩
  · obtain ⟨j, hj, -, rfl⟩ := (h.neighbors i id r).mp hr
    exact hj (h.snpas hown)
  · obtain ⟨j, -, rfl, rfl⟩ := (h.neighbors i id r).mp hr
    obtain ⟨k, -, rfl, rfl⟩ := (h.neighbors i id' r').mp hr'
    rw [h.snpas hsnpa]

/-- A record that an election would not change is current. -/
theorem OnLAN.disCurrent (h : OnLAN x l) {i : Fin n}
    (hstable : ((x i).circuit.electDIS (x i).sys l (scan i)).dis l = (x i).circuit.dis l) :
    (x i).circuit.DisCurrent (x i).sys l := by
  obtain ⟨hadjs, hcfg, hoctet, -⟩ := (x i).circuit.electDIS_eq (x i).sys l (scan i)
  refine (disCurrent_electDIS (x i).circuit (x i).sys l (scan i) (h.lan i)).congr hcfg.symm
    hoctet.symm hstable.symm fun id => ?_
  unfold rival
  rw [hadjs]

/-- **All routers on a LAN agree on one DIS**: the one with the greatest priority and SNPA. -/
theorem one_dis (hn : 0 < n) (h : OnLAN x l)
    (hstable : ∀ i, ((x i).circuit.electDIS (x i).sys l (scan i)).dis l = (x i).circuit.dis l) :
    ∃ w, (∀ i, (x i).circuit.isDIS l (x i).sys = true ↔ i = w) ∧
      (∀ i, (x i).circuit.dis l = ⟨(x w).sys, (x w).circuit.pseudonodeID⟩) ∧
      ∀ i, i ≠ w → (x i).circuit.ownRank < (x w).circuit.ownRank := by
  have : Nonempty (Fin n) := ⟨⟨0, hn⟩⟩
  obtain ⟨w, hmax⟩ := Finite.exists_max fun i => (x i).circuit.ownRank
  have hcurrent : ∀ i, (x i).circuit.DisCurrent (x i).sys l := fun i => h.disCurrent (hstable i)
  have hown : (x w).circuit.dis l = ⟨(x w).sys, (x w).circuit.pseudonodeID⟩ := by
    refine (hcurrent w).ours (h.snpasApart w) fun id r hr => ?_
    obtain ⟨j, -, -, rfl⟩ := (h.neighbors w id r).mp hr
    exact hmax j
  have hall : ∀ i, (x i).circuit.dis l = ⟨(x w).sys, (x w).circuit.pseudonodeID⟩ := by
    intro i
    by_cases hi : i = w
    · rw [hi, hown]
    -- the winner is a neighbour, and its record is not zero
    have hw : (x i).circuit.rival l (x w).sys = some ((x w).advertised l) :=
      (h.neighbors i _ _).mpr ⟨w, fun e => hi e.symm, rfl, rfl⟩
    have hid : ((x w).advertised l).lanID ≠ zeroNodeID := by
      intro hzero
      have hoctet : (x w).circuit.pseudonodeID = 0 :=
        congrArg (·.pseudonodeID) (hown.symm.trans hzero)
      exact h.octets w hoctet
    have hbest : ∀ id' r', (x i).circuit.rival l id' = some r' →
        r'.rank ≤ ((x w).advertised l).rank := by
      intro id' r' hr'
      obtain ⟨j, -, -, rfl⟩ := (h.neighbors i id' r').mp hr'
      exact hmax j
    exact ((hcurrent i).theirs (h.snpasApart i) _ _ hw (hmax i) hbest hid).trans hown
  refine ⟨w, fun i => ?_, hall, fun i hi => lt_of_le_of_ne (hmax i) fun heq => ?_⟩
  · unfold isDIS
    rw [h.lan i, hall i]
    simp only [Bool.not_false, Bool.true_and, Bool.and_eq_true, beq_iff_eq, bne_iff_ne, ne_eq]
    exact ⟨fun hboth => (h.systems hboth.1).symm, fun e => ⟨by rw [e], h.octets w⟩⟩
  · exact hi (h.snpas (snpa_of_candidateRank heq))

/-- The system ID and the SNPA of a router. -/
def routerID (i : Fin 2) : Octets 6 := octets6 0 0 0 0 0 (UInt8.ofNat (i + 1))

/-- Two routers that have elected the second, whose SNPA is the higher one. -/
def twoRouters (i : Fin 2) : LanRouter where
  sys := routerID i
  circuit :=
    { newCircuit { ethernet "eth0" false 10 with localSNPA := routerID i }
        (UInt8.ofNat (i + 1)) 1 with
      dis := fun _ => ⟨routerID 1, 2⟩
      adjs := fun _ => some ((∅ : Map SystemID Adjacency).insert (routerID (1 - i))
        { Adjacency.unheard (routerID (1 - i)) with
          snpa := routerID (1 - i)
          state := .up
          priority := 64
          lanID := ⟨routerID 1, 2⟩ }) }

theorem one_dis_twoRouters : OnLAN twoRouters .level1 ∧
    ∃ w, ∀ i, (twoRouters i).circuit.isDIS .level1 (twoRouters i).sys = true ↔ i = w := by
  have hrival : ∀ (i : Fin 2) (id : SystemID), (twoRouters i).circuit.rival .level1 id =
      if id = (twoRouters (1 - i)).sys then some ((twoRouters (1 - i)).advertised .level1) else
      none := by
    intro i id
    unfold rival twoRouters
    simp only [Option.bind_some, Map.lookup_insert_ite, Map.lookup_empty]
    split <;> rfl
  have hother : ∀ i j : Fin 2, j ≠ i ↔ j = 1 - i := by decide
  have hlan : OnLAN twoRouters .level1 := by
    refine ⟨by decide, by decide, by decide, by decide, fun i id r => ?_⟩
    simp only [hrival, hother, exists_eq_left, Option.ite_none_right_eq_some, Option.some.injEq]
    exact and_congr_right fun _ => eq_comm
  have hstable : ∀ i, ((twoRouters i).circuit.electDIS
      (twoRouters i).sys .level1 .inOrder).dis .level1 = (twoRouters i).circuit.dis .level1 := by
    decide +kernel
  obtain ⟨w, hw, -⟩ := one_dis (by decide) hlan hstable
  exact ⟨hlan, w, hw⟩

end Agreement

end Goisis.Server
