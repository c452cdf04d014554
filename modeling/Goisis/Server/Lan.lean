import Goisis.Lib.Resync
import Goisis.Server.LanStation

/-!
# Resynchronising a LAN

Any number of servers on one LAN, one of them the DIS, with whatever Level 2 databases of foreign
LSPs they have. The DIS sends one burst of CSNPs; from then on the servers run `transmitSRM` and
`transmitPSNP` in any order, and what one sends every other receives before the next step.

Seen from one LSP the LAN is an `Item` of the abstract exchange: the version of a server is the
sequence number of its copy, and its flags are what is due. Every step of the LAN is a step of the
exchange or none (`step_item`), so the invariant of the exchange holds along every run.

* `lan_converges` — in every state in which no flag is set, all servers hold the same LSPs, each in
  the newest copy any of them held at the start.
-/

namespace Goisis.Server

open Lib Packet IsisServer LspCell

section Lan

variable {ι : Type} [DecidableEq ι]

/-- The stations of a LAN, the DIS among them, and the instant everything happens at. -/
structure LanSetup (ι : Type) where
  station : ι → Station
  dis : ι
  now : Int

variable (L : LanSetup ι)

namespace LanSetup

/-- The addresses a station hears from. -/
def peer (i : ι) (a : SNPA) : Prop := ∃ j, j ≠ i ∧ a = (L.station j).snpa

/-- Server `i` becomes `s`, and every other server receives what `i` sent. -/
def broadcast (w : ι → IsisServer) (i : ι) (s : IsisServer) (sent : List Message) (jitter : ι → Int)
    (j : ι) : IsisServer :=
  if j = i then s
  else (w j).hearAll (L.station j).port (L.station i).snpa L.now (jitter j) sent

/-- No server reaches its entry limit while it receives what `i` sent. -/
def Room (w : ι → IsisServer) (i : ι) (sent : List Message) (jitter : ι → Int) : Prop :=
  ∀ j, j ≠ i → IsisServer.HasRoom (L.station j).port (L.station i).snpa L.now (jitter j) sent (w j)

/-- The DIS sends one burst of `sendCSNP`. -/
def announce (w : ι → IsisServer) (jitter : ι → Int) : ι → IsisServer :=
  match (w L.dis).circuitNamed (L.station L.dis).port with
  | none => w
  | some c =>
    L.broadcast w L.dis (w L.dis) (((w L.dis).sendCSNP c .level2 L.now).map .csnp) jitter

/-- One transmission on the LAN. A range over a Go map visits each key at most once, in any order,
and the transport takes or refuses each frame. -/
inductive Step (w : ι → IsisServer) : (ι → IsisServer) → Prop where
  | transmitSRM (i : ι) (order : List LSPID) (takes : LSPID → Bool) (jitter : ι → Int)
      (hroom : L.Room w i
        (((w i).transmitSRM (L.station i).port .level2 L.now order takes).2.map .lsp) jitter) :
      Step w (L.broadcast w i ((w i).transmitSRM (L.station i).port .level2 L.now order takes).1
        (((w i).transmitSRM (L.station i).port .level2 L.now order takes).2.map .lsp) jitter)
  | transmitPSNP (i : ι) (order : List LSPID) (hnodup : order.Nodup) (jitter : ι → Int) :
      Step w (L.broadcast w i ((w i).transmitPSNP (L.station i).port .level2 L.now order).1
        (((w i).transmitPSNP (L.station i).port .level2 L.now order).2.map .psnp) jitter)

/-- The LAN before the burst: all servers up on it, live copies of foreign LSPs only, equal sequence
numbers meaning equal content, no flag set, and nothing too long for any port. -/
structure Initial (w : ι → IsisServer) : Prop where
  onLan : ∀ i, OnLan (L.station i) (decide (i = L.dis)) (L.peer i) L.now (w i)
  clear : ∀ i id, ((w i).lanCell (L.station i).port id).srm = false ∧
    ((w i).lanCell (L.station i).port id).ssn = false
  copies : ∀ i id e, (w i).entryAt .level2 id = some e → LiveCopy L.now id e
  agree : ∀ i j id e e', (w i).entryAt .level2 id = some e → (w j).entryAt .level2 id = some e' →
    e.lsp.sequenceNumber = e'.lsp.sequenceNumber → e.content = e'.content
  foreign : ∀ i j id e, (w i).entryAt .level2 id = some e →
    id.nodeID.systemID ≠ (L.station j).systemID
  fits : ∀ i j id e, (w i).entryAt .level2 id = some e →
    (e.raw.length : Int) ≤ (L.station j).mtu - 3

/-- What every step keeps: the servers stay on the LAN, and every copy is one of a copy held at the
start. -/
structure Inv (w₀ w : ι → IsisServer) : Prop where
  onLan : ∀ i, OnLan (L.station i) (decide (i = L.dis)) (L.peer i) L.now (w i)
  copies : ∀ i id e, (w i).entryAt .level2 id = some e → LiveCopy L.now id e ∧
    ∃ j e₀, (w₀ j).entryAt .level2 id = some e₀ ∧ CopyOf e₀ e

end LanSetup

/-! ## One LSP on the LAN -/

/-- The version of a copy: its sequence number, zero without one. -/
def versionOf (o : Option LspEntry) : ℕ := o.elim 0 (·.lsp.sequenceNumber.toNat)

/-- An LSP on the LAN as an item of the abstract exchange. -/
def LanSetup.item (w : ι → IsisServer) (id : LSPID) : Item ι where
  version i := versionOf ((w i).entryAt .level2 id)
  send i := ((w i).lanCell (L.station i).port id).srm
  request i := ((w i).lanCell (L.station i).port id).ssn

/-- The cell of an LSP at a station. -/
def LanSetup.cell (w : ι → IsisServer) (i : ι) (id : LSPID) : LspCell :=
  (w i).lanCell (L.station i).port id

section Cells

variable {now : Int} {e : LspEntry} {v : LspCell}

theorem versionOf_none : versionOf none = 0 := rfl

theorem versionOf_some (e : LspEntry) : versionOf (some e) = e.lsp.sequenceNumber.toNat := rfl

theorem versionOf_copy (e : LspEntry) (now : Int) :
    versionOf (some (e.copy now)) = e.lsp.sequenceNumber.toNat := rfl

theorem versionOf_pos (h : 1 ≤ e.lsp.sequenceNumber) : 0 < e.lsp.sequenceNumber.toNat :=
  UInt32.le_iff_toNat_le.mp h

theorem isSome_iff_version {o : Option LspEntry} (h : ∀ e, o = some e → 1 ≤ e.lsp.sequenceNumber) :
    o.isSome = true ↔ 0 < versionOf o := by
  cases o with
  | none => simp [versionOf_none]
  | some e => simp [versionOf_some, versionOf_pos (h e rfl)]

/-- A copy that arrives, in versions. -/
theorem heard_versions (now : Int) (h : 1 ≤ e.lsp.sequenceNumber) (v : LspCell) :
    versionOf (heard now e v).entry = max (versionOf v.entry) e.lsp.sequenceNumber.toNat ∧
      (heard now e v).srm = (if versionOf v.entry < e.lsp.sequenceNumber.toNat then false
        else if e.lsp.sequenceNumber.toNat < versionOf v.entry then true else v.srm) ∧
      (heard now e v).ssn =
        (if e.lsp.sequenceNumber.toNat < versionOf v.entry then false else v.ssn) := by
  have hpos := versionOf_pos h
  obtain ⟨entry, srm, ssn⟩ := v
  cases entry with
  | none => simp [heard, versionOf_copy, versionOf_none, hpos]
  | some loc =>
    simp only [heard, versionOf_some, UInt32.lt_iff_toNat_lt]
    by_cases hlt : loc.lsp.sequenceNumber.toNat < e.lsp.sequenceNumber.toNat
    · simp [hlt, Nat.not_lt.mpr hlt.le, versionOf_copy, max_eq_right hlt.le]
    by_cases hgt : e.lsp.sequenceNumber.toNat < loc.lsp.sequenceNumber.toNat
    · simp [hlt, hgt, versionOf_some, max_eq_left hgt.le]
    · simp [hlt, hgt, versionOf_some, max_eq_left (Nat.not_lt.mp hlt)]

theorem asked_versions (seq : UInt32) (v : LspCell) : asked seq v =
    { v with srm := v.srm || decide (seq.toNat < versionOf v.entry) } := by
  obtain ⟨entry, srm, ssn⟩ := v
  cases entry with
  | none => simp [asked, versionOf_none]
  | some loc =>
    simp only [asked, versionOf_some, UInt32.lt_iff_toNat_lt]
    by_cases hlt : seq.toNat < loc.lsp.sequenceNumber.toNat <;> simp [hlt]

/-- The burst, in versions, on flags that were clear. -/
theorem announced_versions {o : Option LspEntry} (ho : ∀ e, o = some e → 1 ≤ e.lsp.sequenceNumber)
    (hv : ∀ e, v.entry = some e → 1 ≤ e.lsp.sequenceNumber) (hsrm : v.srm = false)
    (hssn : v.ssn = false) : announced o v = { v with
      srm := decide (versionOf o < versionOf v.entry)
      ssn := decide (versionOf v.entry < versionOf o) } := by
  obtain ⟨entry, srm, ssn⟩ := v
  cases hsrm
  cases hssn
  cases o with
  | none =>
    cases entry with
    | none => rfl
    | some loc =>
      have hpos := versionOf_pos (hv loc rfl)
      simp [announced, versionOf_none, versionOf_some, hpos]
  | some e =>
    have hpos := versionOf_pos (ho e rfl)
    cases entry with
    | none => simp [announced, versionOf_none, versionOf_some, hpos]
    | some loc =>
      simp only [announced, versionOf_some, UInt32.lt_iff_toNat_lt]
      by_cases hlt : loc.lsp.sequenceNumber.toNat < e.lsp.sequenceNumber.toNat
      · simp [hlt, Nat.not_lt.mpr hlt.le]
      simp only [if_neg hlt]
      congr
      exact (decide_eq_false hlt).symm

theorem entry_heard (now : Int) (e : LspEntry) (v : LspCell) :
    (heard now e v).entry = v.entry ∨ (heard now e v).entry = some (e.copy now) := by
  obtain ⟨entry, srm, ssn⟩ := v
  cases entry with
  | none => exact .inr rfl
  | some loc =>
    unfold heard
    simp only
    split
    · exact .inr rfl
    · split <;> exact .inl rfl

end Cells

/-! ## One step -/

section Step

variable {L} {w₀ w w' : ι → IsisServer}

namespace LanSetup

variable {id : LSPID} {i : ι} {e : LspEntry}

/-- Copies anywhere on the LAN agree at equal sequence numbers. -/
theorem Initial.agreesWith (h₀ : L.Initial w₀) (h : L.Inv w₀ w) {i j : ι}
    (he : (w i).entryAt .level2 id = some e) : AgreesWith L.now (w j) e := by
  obtain ⟨hlive, i₀, e₀, he₀, hcopy⟩ := h.copies i id e he
  intro loc hloc
  rw [hlive.lspID] at hloc ⊢
  obtain ⟨hlive', j₀, loc₀, hloc₀, hcopy'⟩ := h.copies j id loc hloc
  refine ⟨hlive', fun hseq => checksum_of_content ?_⟩
  rw [hcopy.content, hcopy'.content]
  refine h₀.agree j₀ i₀ id loc₀ e₀ hloc₀ he₀ ?_
  rw [← hcopy.sequenceNumber, ← hcopy'.sequenceNumber, hseq]

theorem Initial.foreign_of (h₀ : L.Initial w₀) (h : L.Inv w₀ w) (j : ι)
    (he : (w i).entryAt .level2 id = some e) : id.nodeID.systemID ≠ (L.station j).systemID := by
  obtain ⟨-, i₀, e₀, he₀, -⟩ := h.copies i id e he
  exact h₀.foreign i₀ j id e₀ he₀

theorem Initial.fits_of (h₀ : L.Initial w₀) (h : L.Inv w₀ w) (j : ι)
    (he : (w i).entryAt .level2 id = some e) :
    ((e.wire L.now).length : Int) ≤ (L.station j).mtu - 3 := by
  obtain ⟨-, i₀, e₀, he₀, hcopy⟩ := h.copies i id e he
  rw [LspEntry.length_wire, hcopy.length]
  exact h₀.fits i₀ j id e₀ he₀

omit [DecidableEq ι] in
/-- An LSP on the LAN, station by station. -/
theorem item_eq {x : Item ι} (h : ∀ j, versionOf (L.cell w' j id).entry = x.version j ∧
      (L.cell w' j id).srm = x.send j ∧ (L.cell w' j id).ssn = x.request j) :
    L.item w' id = x := by
  ext j
  · exact (h j).1
  · exact (h j).2.1
  · exact (h j).2.2

omit [DecidableEq ι] in
theorem item_congr (h : ∀ j, L.cell w' j id = L.cell w j id) : L.item w' id = L.item w id :=
  item_eq fun j => by
    rw [h j]
    exact ⟨rfl, rfl, rfl⟩

/-- Station `i` sends its copy and everyone else hears it. -/
theorem item_sent (he : (w i).entryAt .level2 id = some e) (hseq : 1 ≤ e.lsp.sequenceNumber)
    (hself : L.cell w' i id = { L.cell w i id with srm := false })
    (hothers : ∀ j, j ≠ i → L.cell w' j id = heard L.now e (L.cell w j id)) :
    L.item w' id = (L.item w id).sent i := by
  have hver : e.lsp.sequenceNumber.toNat = (L.item w id).version i := by
    show _ = versionOf ((w i).entryAt .level2 id)
    rw [he, versionOf_some]
  refine item_eq fun j => ?_
  unfold Item.sent
  by_cases hj : j = i
  · subst hj
    rw [hself]
    simp [item, cell]
    rfl
  · have hheard := heard_versions L.now hseq (L.cell w j id)
    rw [hver] at hheard
    simp only [hothers j hj, ne_eq, hj, false_or, not_false_eq_true, true_and]
    exact hheard

/-- A flag of station `i` is dropped. -/
theorem item_dropped (hself : L.cell w' i id = { L.cell w i id with srm := false })
    (hothers : ∀ j, j ≠ i → L.cell w' j id = L.cell w j id) :
    L.item w' id = (L.item w id).dropped i := by
  refine item_eq fun j => ?_
  by_cases hj : j = i
  · subst hj
    rw [hself]
    simp [Item.dropped, item, cell]
    rfl
  · rw [hothers j hj]
    simp [Item.dropped, item, cell, hj]
    rfl

/-- Station `i` asks for the LSP and the DIS answers. -/
theorem item_requested (hself : L.cell w' i id = { L.cell w i id with ssn := false })
    (hdis : L.dis ≠ i → L.cell w' L.dis id =
      asked (((w i).entryAt .level2 id).elim 0 (·.lsp.sequenceNumber)) (L.cell w L.dis id))
    (hothers : ∀ j, j ≠ i → j ≠ L.dis → L.cell w' j id = L.cell w j id) :
    L.item w' id = (L.item w id).requested L.dis i := by
  have hver : (((w i).entryAt .level2 id).elim 0 (·.lsp.sequenceNumber)).toNat =
      (L.item w id).version i := by
    show _ = versionOf ((w i).entryAt .level2 id)
    cases (w i).entryAt .level2 id <;> rfl
  refine item_eq fun j => ?_
  simp only [Item.requested]
  by_cases hj : j = i
  · have hnot : ¬ (j = L.dis ∧ (L.item w id).version i < (L.item w id).version L.dis) := by
      rintro ⟨rfl, hlt⟩
      rw [hj] at hlt
      exact Nat.lt_irrefl _ hlt
    rw [decide_eq_false hnot, Bool.or_false, hj, hself, if_pos rfl]
    exact ⟨rfl, rfl, rfl⟩
  · by_cases hd : j = L.dis
    · subst hd
      rw [hdis hj, asked_versions, hver]
      simp only [true_and, if_neg hj]
      exact ⟨rfl, rfl, rfl⟩
    · simp only [hothers j hj hd, hd, false_and, decide_false, Bool.or_false, if_neg hj]
      exact ⟨rfl, rfl, rfl⟩

variable (h₀ : L.Initial w₀)

include h₀

/-- **A transmission of LSPs**: everyone sees the LSPs `es` of station `i` arrive. -/
theorem step_transmitSRM (h : L.Inv w₀ w) (i : ι) (order : List LSPID) (takes : LSPID → Bool)
    (jitter : ι → Int) (hroom : L.Room w i
      (((w i).transmitSRM (L.station i).port .level2 L.now order takes).2.map .lsp) jitter)
    (hw' : w' = L.broadcast w i ((w i).transmitSRM (L.station i).port .level2 L.now order takes).1
      (((w i).transmitSRM (L.station i).port .level2 L.now order takes).2.map .lsp) jitter) :
    L.Inv w₀ w' ∧ ∀ id, L.item w' id = L.item w id ∨
      Item.Step L.dis (L.item w id) (L.item w' id) := by
  obtain ⟨es, hsent, honlan, hnodup, hmine, hothers⟩ := transmitSRM_lan order takes (h.onLan i)
    fun id e he => ⟨(h.copies i id e he).1.lspID, h₀.fits_of h i he⟩
  have hheld : ∀ e ∈ es, (w i).entryAt .level2 e.lsp.lspID = some e := fun e he => (hmine e he).1
  have hlive : ∀ e ∈ es, LiveCopy L.now e.lsp.lspID e := fun e he =>
    (h.copies i _ e (hheld e he)).1
  have hhears : ∀ j, j ≠ i → OnLan (L.station j) (decide (j = L.dis)) (L.peer j) L.now (w' j) ∧
      (∀ e ∈ es, L.cell w' j e.lsp.lspID = heard L.now e (L.cell w j e.lsp.lspID)) ∧
      ∀ id, (∀ e ∈ es, e.lsp.lspID ≠ id) → L.cell w' j id = L.cell w j id := by
    intro j hj
    have hr := hroom j hj
    rw [hsent, List.map_map] at hr
    have hall := hearAll_lsps (h.onLan j) ⟨i, hj.symm, rfl⟩
      (fun e he => ⟨hlive e he, h₀.foreign_of h j (hheld e he), h₀.agreesWith h (hheld e he)⟩)
      hnodup hr
    rw [hw', hsent, List.map_map]
    simp only [cell, broadcast, if_neg hj]
    exact hall
  have hself : w' i = ((w i).transmitSRM (L.station i).port .level2 L.now order takes).1 := by
    rw [hw', broadcast, if_pos rfl]
  rw [← hself] at honlan hmine hothers
  refine ⟨⟨fun j => ?_, fun j id x hx => ?_⟩, fun id => ?_⟩
  · by_cases hj : j = i
    · rw [hj]
      exact honlan
    · exact (hhears j hj).1
  · -- a new copy is one of a copy held before
    by_cases hsent : ∃ e ∈ es, e.lsp.lspID = id
    · obtain ⟨e, he, rfl⟩ := hsent
      by_cases hj : j = i
      · rw [hj] at hx
        have hcell := congrArg entry (hmine e he).2.2
        exact h.copies i _ x (hcell.symm.trans hx)
      · have hcell := congrArg entry ((hhears j hj).2.1 e he)
        rcases entry_heard L.now e (L.cell w j e.lsp.lspID) with hold | hnew
        · exact h.copies j _ x ((hcell.trans hold).symm.trans hx)
        have hx' : some (e.copy L.now) = some x := (hcell.trans hnew).symm.trans hx
        cases hx'
        obtain ⟨i₀, e₀, he₀, hcopy⟩ := (h.copies i _ e (hheld e he)).2
        exact ⟨(hlive e he).copy, i₀, e₀, he₀, hcopy.trans (hlive e he).copyOf⟩
    · have hne : ∀ e ∈ es, e.lsp.lspID ≠ id := fun e he heq => hsent ⟨e, he, heq⟩
      refine h.copies j id x (Eq.trans ?_ hx)
      by_cases hj : j = i
      · rw [hj]
        rcases hothers id hne with hcell | ⟨-, hcell⟩
        · exact (congrArg entry hcell).symm
        · exact (congrArg entry hcell).symm
      · exact (congrArg entry ((hhears j hj).2.2 id hne)).symm
  · by_cases hsent : ∃ e ∈ es, e.lsp.lspID = id
    · obtain ⟨e, he, rfl⟩ := hsent
      right
      rw [item_sent (hheld e he) (hlive e he).seq (hmine e he).2.2 fun j hj =>
        (hhears j hj).2.1 e he]
      exact .send i (hmine e he).2.1
    · have hne : ∀ e ∈ es, e.lsp.lspID ≠ id := fun e he heq => hsent ⟨e, he, heq⟩
      rcases hothers id hne with hcell | ⟨hnone, hcell⟩
      · refine .inl (item_congr fun j => ?_)
        by_cases hj : j = i
        · rw [hj]
          exact hcell
        · exact (hhears j hj).2.2 id hne
      · right
        rw [item_dropped hcell fun j hj => (hhears j hj).2.2 id hne]
        refine .drop i ?_
        show versionOf ((w i).entryAt .level2 id) = 0
        rw [hnone, versionOf_none]

/-- **A transmission of PSNPs**: the DIS answers for what station `i` asks. -/
theorem step_transmitPSNP (h : L.Inv w₀ w) (i : ι) {order : List LSPID} (hnodup : order.Nodup)
    (jitter : ι → Int)
    (hw' : w' = L.broadcast w i ((w i).transmitPSNP (L.station i).port .level2 L.now order).1
      (((w i).transmitPSNP (L.station i).port .level2 L.now order).2.map .psnp) jitter) :
    L.Inv w₀ w' ∧ ∀ id, L.item w' id = L.item w id ∨
      Item.Step L.dis (L.item w id) (L.item w' id) := by
  obtain ⟨ids, honlan, hlevel, hlisted, hids, hmine⟩ := transmitPSNP_lan hnodup (h.onLan i)
  have hself : w' i = ((w i).transmitPSNP (L.station i).port .level2 L.now order).1 := by
    rw [hw', broadcast, if_pos rfl]
  rw [← hself] at honlan hmine
  -- a station that is not the DIS ignores them
  have hothers : ∀ j, j ≠ i → j ≠ L.dis → w' j = w j := by
    intro j hj hd
    have hon := h.onLan j
    rw [decide_eq_false hd] at hon
    rw [hw', broadcast, if_neg hj, hearAll_psnps_other hon hlevel]
  have hdis : L.dis ≠ i → OnLan (L.station L.dis) true (L.peer L.dis) L.now (w' L.dis) ∧
      ∀ id, L.cell w' L.dis id = if id ∈ ids then
        asked (((w i).entryAt .level2 id).elim 0 (·.lsp.sequenceNumber)) (L.cell w L.dis id)
        else L.cell w L.dis id := by
    intro hne
    have hon := h.onLan L.dis
    rw [decide_eq_true rfl] at hon
    have hmap : (ids.map (requestFor ((w i).entryAt .level2) L.now)).map (·.lspID) = ids := by
      rw [List.map_map]
      exact (List.map_congr_left fun id _ => lspID_requestFor _ _ id).trans (List.map_id ids)
    have hdiff : ∀ x ∈ ids.map (requestFor ((w i).entryAt .level2) L.now),
        NoneDiffers L.now (w L.dis) x := by
      intro x hx loc hloc hdiff
      obtain ⟨id, -, rfl⟩ := List.mem_map.mp hx
      rw [lspID_requestFor] at hloc
      cases he : (w i).entryAt .level2 id with
      | none =>
        rw [requestFor, he] at hdiff
        exact hdiff.2.2.1 rfl
      | some e =>
        rw [requestFor, he] at hdiff
        rw [← (h.copies i id e he).1.lspID] at hloc
        exact hdiff.2.2.2 ((h₀.agreesWith h he loc hloc).2 hdiff.1)
    have hall := hearAll_psnps (jitter L.dis) hon ⟨i, hne.symm, rfl⟩ hlevel
      (by rw [hlisted, hmap]; exact hids) (by rw [hlisted]; exact hdiff)
    rw [hlisted] at hall
    have hw : w' L.dis = (w L.dis).hearAll (L.station L.dis).port (L.station i).snpa L.now
        (jitter L.dis)
        (((w i).transmitPSNP (L.station i).port .level2 L.now order).2.map .psnp) := by
      rw [hw', broadcast, if_neg hne]
    simp only [cell, hw]
    refine ⟨hall.1, fun id => ?_⟩
    split
    · rename_i hid
      have hx := hall.2.1 _ (List.mem_map_of_mem hid)
      rwa [lspID_requestFor, sequenceNumber_requestFor] at hx
    · rename_i hid
      refine hall.2.2 id fun x hx heq => hid ?_
      rw [← heq, ← hmap]
      exact List.mem_map_of_mem hx
  refine ⟨⟨fun j => ?_, fun j id x hx => ?_⟩, fun id => ?_⟩
  · by_cases hj : j = i
    · rw [hj]
      exact honlan
    · by_cases hd : j = L.dis
      · subst hd
        rw [decide_eq_true rfl]
        exact (hdis hj).1
      · rw [hothers j hj hd]
        exact h.onLan j
  · -- a request touches no database
    refine h.copies j id x (Eq.trans ?_ hx)
    by_cases hj : j = i
    · rw [hj]
      exact (congrArg entry (hmine id)).symm
    by_cases hd : j = L.dis
    · subst hd
      have hcell := congrArg entry ((hdis hj).2 id)
      rw [asked_versions] at hcell
      split at hcell
      · exact hcell.symm
      · exact hcell.symm
    · rw [hothers j hj hd]
  · by_cases hid : id ∈ ids
    · right
      have hitem : L.item w' id = (L.item w id).requested L.dis i := by
        refine item_requested ?_ (fun hne => ?_) fun j hj hd => ?_
        · rw [cell, hmine id, decide_eq_true hid]
          rfl
        · rw [(hdis hne).2 id, if_pos hid]
        · rw [cell, hothers j hj hd]
          rfl
      rw [hitem]
      exact .request i
    · refine .inl (item_congr fun j => ?_)
      by_cases hj : j = i
      · rw [hj, cell, hmine id, decide_eq_false hid]
        rfl
      by_cases hd : j = L.dis
      · subst hd
        rw [(hdis hj).2 id, if_neg hid]
      · rw [cell, hothers j hj hd]
        rfl

/-- **Every transmission is a step of the abstract exchange, for every LSP, or none.** -/
theorem step_item (h : L.Inv w₀ w) (hstep : L.Step w w') :
    L.Inv w₀ w' ∧ ∀ id, L.item w' id = L.item w id ∨
      Item.Step L.dis (L.item w id) (L.item w' id) := by
  cases hstep with
  | transmitSRM i order takes jitter hroom =>
    exact step_transmitSRM h₀ h i order takes jitter hroom rfl
  | transmitPSNP i order hnodup jitter => exact step_transmitPSNP h₀ h i hnodup jitter rfl

/-- **The burst of the DIS announces its version of every LSP.** -/
theorem announce_item (jitter : ι → Int) :
    L.Inv w₀ (L.announce w₀ jitter) ∧ ∀ id,
      (L.item (L.announce w₀ jitter) id).version = (L.item w₀ id).version ∧
      (L.item (L.announce w₀ jitter) id).Announced L.dis := by
  have hinv : L.Inv w₀ w₀ := ⟨h₀.onLan, fun i id e he => ⟨h₀.copies i id e he, i, e, he, .refl e⟩⟩
  obtain ⟨c, hc, hlan⟩ := (h₀.onLan L.dis).circuit
  have hself : L.announce w₀ jitter L.dis = w₀ L.dis := by
    simp only [announce, hc, broadcast, if_true]
  have hhears : ∀ j, j ≠ L.dis → OnLan (L.station j) (decide (j = L.dis)) (L.peer j) L.now
      (L.announce w₀ jitter j) ∧ ∀ id, L.cell (L.announce w₀ jitter) j id =
        announced ((w₀ L.dis).entryAt .level2 id) (L.cell w₀ j id) := by
    intro j hj
    have hburst := hear_burst (jitter j) (h₀.onLan j) ⟨L.dis, hj.symm, rfl⟩ (w₀ L.dis) c
      fun id e he => ⟨h₀.copies L.dis id e he, h₀.agreesWith hinv he⟩
    simp only [cell, announce, hc, broadcast, if_neg hj]
    exact hburst
  have hcell : ∀ j, j ≠ L.dis → ∀ id, L.cell (L.announce w₀ jitter) j id =
      { L.cell w₀ j id with
        srm := decide (versionOf ((w₀ L.dis).entryAt .level2 id) <
          versionOf ((w₀ j).entryAt .level2 id))
        ssn := decide (versionOf ((w₀ j).entryAt .level2 id) <
          versionOf ((w₀ L.dis).entryAt .level2 id)) } := by
    intro j hj id
    rw [(hhears j hj).2 id]
    exact announced_versions (fun e he => (h₀.copies _ _ e he).seq)
      (fun e he => (h₀.copies j id e he).seq) (h₀.clear j id).1 (h₀.clear j id).2
  have hentry : ∀ j id, (L.announce w₀ jitter j).entryAt .level2 id =
      (w₀ j).entryAt .level2 id := by
    intro j id
    by_cases hj : j = L.dis
    · rw [hj, hself]
    · exact congrArg entry (hcell j hj id)
  refine ⟨⟨fun j => ?_, fun j id e he => ?_⟩, fun id => ⟨?_, fun j hj => ?_, fun j hj => ?_⟩⟩
  · by_cases hj : j = L.dis
    · rw [hj, hself]
      exact h₀.onLan L.dis
    · exact (hhears j hj).1
  · rw [hentry] at he
    exact hinv.copies j id e he
  · funext j
    show versionOf ((L.announce w₀ jitter j).entryAt .level2 id) = _
    rw [hentry]
    rfl
  · show (L.cell (L.announce w₀ jitter) j id).srm = true ↔
      versionOf ((L.announce w₀ jitter L.dis).entryAt .level2 id) <
        versionOf ((L.announce w₀ jitter j).entryAt .level2 id)
    rw [hcell j hj id, hentry, hentry, decide_eq_true_iff]
  · show (L.cell (L.announce w₀ jitter) j id).ssn = true ↔
      versionOf ((L.announce w₀ jitter j).entryAt .level2 id) <
        versionOf ((L.announce w₀ jitter L.dis).entryAt .level2 id)
    rw [hcell j hj id, hentry, hentry, decide_eq_true_iff]

end LanSetup

end Step

/-! ## Runs -/

section Runs

variable {L} {w₀ w : ι → IsisServer}

/-- No SRM or SSN flag is set on the LAN. -/
def LanSetup.Quiet (L : LanSetup ι) (w : ι → IsisServer) : Prop :=
  ∀ i id, ((w i).lanCell (L.station i).port id).srm = false ∧
    ((w i).lanCell (L.station i).port id).ssn = false

/-- The servers hold the same LSPs, and of each the newest copy any of them held at the start. -/
structure LanSetup.Converged (w₀ w : ι → IsisServer) : Prop where
  sameIDs : ∀ i id, ((w i).entryAt .level2 id).isSome = true ↔
    ∃ j, ((w₀ j).entryAt .level2 id).isSome = true
  newest : ∀ i id e, (w i).entryAt .level2 id = some e →
    ∃ j e₀, (w₀ j).entryAt .level2 id = some e₀ ∧
    CopyOf e₀ e ∧ ∀ k e', (w₀ k).entryAt .level2 id = some e' →
      e'.lsp.sequenceNumber ≤ e₀.lsp.sequenceNumber

/-- Along a run every LSP stays pending at one version: the newest held at the start. -/
theorem LanSetup.run_pending [Fintype ι] (h₀ : L.Initial w₀) {jitter : ι → Int}
    (hrun : Relation.ReflTransGen L.Step (L.announce w₀ jitter) w) :
    L.Inv w₀ w ∧ ∀ id, ∃ top, (L.item w id).Pending L.dis top ∧
      (∀ j, (L.item w₀ id).version j ≤ top) ∧ ∃ j, (L.item w₀ id).version j = top := by
  induction hrun with
  | refl =>
    obtain ⟨hinv, hitem⟩ := LanSetup.announce_item h₀ jitter
    refine ⟨hinv, fun id => ?_⟩
    obtain ⟨hver, hann⟩ := hitem id
    obtain ⟨top, hpend⟩ := hann.pending
    rw [← hver]
    exact ⟨top, hpend, hpend.le, hpend.held⟩
  | tail _ hstep ih =>
    obtain ⟨hinv, hitem⟩ := LanSetup.step_item h₀ ih.1 hstep
    refine ⟨hinv, fun id => ?_⟩
    obtain ⟨top, hpend, htop⟩ := ih.2 id
    refine ⟨top, ?_, htop⟩
    rcases hitem id with heq | habs
    · rw [heq]
      exact hpend
    · exact hpend.step habs

/-- **A LAN resynchronises**: after one burst of the DIS and any run of `transmitSRM` and
`transmitPSNP`, once no flag is set, all servers hold the same LSPs in the newest copies there
were. -/
theorem lan_converges [Fintype ι] {L : LanSetup ι} {w₀ w : ι → IsisServer} (h₀ : L.Initial w₀)
    {jitter : ι → Int} (hrun : Relation.ReflTransGen L.Step (L.announce w₀ jitter) w)
    (hquiet : L.Quiet w) : LanSetup.Converged w₀ w := by
  obtain ⟨hinv, hpending⟩ := LanSetup.run_pending h₀ hrun
  have hver : ∀ id, ∃ top, (∀ i, versionOf ((w i).entryAt .level2 id) = top) ∧
      (∀ j, versionOf ((w₀ j).entryAt .level2 id) ≤ top) ∧
      ∃ j, versionOf ((w₀ j).entryAt .level2 id) = top := by
    intro id
    obtain ⟨top, hpend, htop⟩ := hpending id
    exact ⟨top, hpend.eq_of_quiet (fun i => (hquiet i id).1) fun i => (hquiet i id).2, htop⟩
  refine ⟨fun i id => ?_, fun i id e he => ?_⟩
  · obtain ⟨top, hall, hle, j, hj⟩ := hver id
    have hheld : ((w i).entryAt .level2 id).isSome = true ↔ 0 < top := by
      rw [← hall i]
      exact isSome_iff_version fun e he => (hinv.copies i id e he).1.seq
    have hinit : ∀ k, ((w₀ k).entryAt .level2 id).isSome = true ↔
        0 < versionOf ((w₀ k).entryAt .level2 id) := fun k =>
      isSome_iff_version fun e he => (h₀.copies k id e he).seq
    rw [hheld]
    constructor
    · intro hpos
      exact ⟨j, (hinit j).mpr (hj ▸ hpos)⟩
    · rintro ⟨k, hk⟩
      exact Nat.lt_of_lt_of_le ((hinit k).mp hk) (hle k)
  · obtain ⟨top, hall, hle, -⟩ := hver id
    obtain ⟨-, j, e₀, he₀, hcopy⟩ := hinv.copies i id e he
    refine ⟨j, e₀, he₀, hcopy, fun k e' he' => ?_⟩
    have htop := hall i
    have hk := hle k
    rw [he, versionOf_some, hcopy.sequenceNumber] at htop
    rw [he', versionOf_some, ← htop] at hk
    exact UInt32.le_iff_toNat_le.mpr hk

end Runs

end Lan

/-! ## A LAN of two -/

/-- An LSP of a router elsewhere. -/
def strayID : LSPID := ⟨⟨octets6 0 0 0 0 0 9, 0⟩, 0⟩

def strayRaw : Bytes :=
  [131, 27, 1, 0, 20, 1, 0, 0, 0, 27, 4, 176, 0, 0, 0, 0, 0, 9, 0, 0, 0, 0, 0, 1, 184, 58, 3]

def strayLSP : LSP where
  level := .level2
  remainingTime := 1200
  lspID := strayID
  sequenceNumber := 1
  checksum := 47162
  isType := 3
  tlvs := []

/-- The system of a station, its number as the last octet. -/
def lanSystem (b : Bool) : SystemID := octets6 0 0 0 0 0 (if b then 2 else 1)

def lanAddress (b : Bool) : SNPA := octets6 2 0 0 0 0 (if b then 2 else 1)

/-- The LAN of two stations, `false` the DIS. -/
def lanOfTwo : LanSetup Bool where
  station b := ⟨"lan0", lanAddress b, lanSystem b, 1500⟩
  dis := false
  now := 0

/-- The port of a station, the other one up on it. -/
def portOfTwo (b : Bool) : Circuit :=
  { newCircuit { ethernet "lan0" false 10 with level1 := false, level2 := true } 1 1 with
    dis := fun _ => ⟨lanSystem false, 1⟩
    adjs := fun
      | .level1 => none
      | .level2 => some (AList.insert (lanSystem !b)
          { systemID := lanSystem !b, snpa := lanAddress !b, state := .up } ∅) }

/-- The DIS holds the stray LSP, the other station nothing. -/
def serverOfTwo (b : Bool) : IsisServer :=
  { blank ⟨fun _ _ _ => [], lanSystem b, [], {}, {}, 0, 0, none⟩ with
    circuits := [portOfTwo b]
    dbs := fun
      | .level1 => none
      | .level2 => some (if b then ∅
          else AList.insert strayID (receivedEntry strayRaw strayLSP 0) ∅) }

theorem initial_ofTwo : lanOfTwo.Initial serverOfTwo := by
  have hentry : ∀ b id e, (serverOfTwo b).entryAt .level2 id = some e →
      id = strayID ∧ e = receivedEntry strayRaw strayLSP 0 := by
    intro b id e he
    cases b with
    | true => cases he
    | false =>
      by_cases hid : id = strayID
      · subst hid
        refine ⟨rfl, ?_⟩
        have h : (serverOfTwo false).entryAt .level2 strayID =
            some (receivedEntry strayRaw strayLSP 0) := by decide
        exact (Option.some.inj he).symm
      · have h : (serverOfTwo false).entryAt .level2 id = none := AList.lookup_insert_ne hid
        rw [h] at he
        cases he
  have hlive : LiveCopy 0 strayID (receivedEntry strayRaw strayLSP 0) :=
    ⟨⟨strayRaw, strayLSP, 0, by decide, by decide, by decide, rfl⟩, rfl, rfl, by decide, by decide⟩
  refine ⟨fun b => ⟨rfl, rfl, portOfTwo b, rfl, ?_⟩, fun b id => ⟨rfl, rfl⟩, ?_, ?_, ?_, ?_⟩
  · refine ⟨rfl, rfl, by cases b <;> decide, ?_, rfl, rfl, fun id => rfl, fun id t ht => nomatch ht⟩
    rintro a ⟨j, hj, rfl⟩
    cases b <;> cases j <;> first | exact absurd rfl hj | decide
  · intro b id e he
    obtain ⟨rfl, rfl⟩ := hentry b id e he
    exact hlive
  · intro b b' id e e' he he' _
    rw [(hentry b id e he).2, (hentry b' id e' he').2]
  · intro b j id e he
    rw [(hentry b id e he).1]
    cases j <;> decide
  · intro b j id e he
    rw [(hentry b id e he).2]
    cases j <;> decide

/-- The other station asks for the LSP, and the DIS sends it. -/
def askedOfTwo : Bool → IsisServer :=
  lanOfTwo.broadcast (lanOfTwo.announce serverOfTwo fun _ => 0) true
    ((lanOfTwo.announce serverOfTwo (fun _ => 0) true).transmitPSNP "lan0" .level2 0 [strayID]).1
    (((lanOfTwo.announce serverOfTwo (fun _ => 0) true).transmitPSNP "lan0" .level2 0
      [strayID]).2.map
      .psnp) fun _ => 0

def syncedOfTwo : Bool → IsisServer :=
  lanOfTwo.broadcast askedOfTwo false
    ((askedOfTwo false).transmitSRM "lan0" .level2 0 [strayID] fun _ => true).1
    (((askedOfTwo false).transmitSRM "lan0" .level2 0 [strayID] fun _ => true).2.map .lsp)
      fun _ => 0

theorem lookup_of_empty {K V : Type} [DecidableEq K] {m : Option (Map K V)} (k : K)
    (h : m.map (·.entries.length) = some 0) : m.bind (·.lookup k) = none := by
  obtain ⟨db, rfl, hlen⟩ := Option.map_eq_some_iff.mp h
  refine AList.lookup_eq_none.mpr fun hk => ?_
  rw [AList.mem_keys, AList.keys, List.keys, List.length_eq_zero_iff.mp hlen] at hk
  cases hk

theorem quiet_ofTwo : lanOfTwo.Quiet syncedOfTwo := by
  intro b id
  have hmaps : ((syncedOfTwo b).circuitNamed "lan0").map (fun c =>
      ((c.srm .level2).map (·.entries.length), (c.ssn .level2).map (·.entries.length))) =
      some (some 0, some 0) := by
    cases b <;> decide +kernel
  obtain ⟨c, hc, hlens⟩ := Option.map_eq_some_iff.mp hmaps
  obtain ⟨hsrm, hssn⟩ := Prod.mk.inj hlens
  rw [show (lanOfTwo.station b).port = "lan0" from rfl]
  unfold lanCell
  rw [hc]
  refine ⟨?_, ?_⟩
  · show ((c.srm .level2).bind (·.lookup id)).isSome = false
    rw [lookup_of_empty id hsrm]
    rfl
  · show ((c.ssn .level2).bind (·.lookup id)).isSome = false
    rw [lookup_of_empty id hssn]
    rfl

/-- The other station ends up with the LSP. -/
theorem lan_converges_ofTwo :
    (syncedOfTwo true).entryAt .level2 strayID =
        some (IsisServer.receivedEntry strayRaw strayLSP 0) ∧
      LanSetup.Converged serverOfTwo syncedOfTwo := by
  have hsteps : Relation.ReflTransGen lanOfTwo.Step (lanOfTwo.announce serverOfTwo fun _ => 0)
      syncedOfTwo := by
    refine .tail (.single (.transmitPSNP true [strayID] (by decide) fun _ => 0)) ?_
    refine .transmitSRM false [strayID] (fun _ => true) (fun _ => 0) fun j hj => ?_
    have hsent : ((askedOfTwo false).transmitSRM "lan0" .level2 0 [strayID] fun _ => true).2 =
        [strayRaw] := by decide +kernel
    show IsisServer.HasRoom _ _ _ _
      (((askedOfTwo false).transmitSRM "lan0" .level2 0 [strayID] fun _ => true).2.map .lsp) _
    refine ⟨fun hfull => ?_, trivial⟩
    cases j with
    | false => exact hj rfl
    | true => exact absurd hfull.1 (by decide +kernel)
  exact ⟨by decide +kernel, lan_converges initial_ofTwo hsteps quiet_ofTwo⟩

end Goisis.Server
