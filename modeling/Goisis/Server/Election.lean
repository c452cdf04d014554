import Goisis.Lib.RunningMax
import Goisis.Server.Spf
import Mathlib.Data.Prod.Lex

/-!
# The election of a Flexible Algorithm's definition

`flexAlgoState` (`pkg/server/flexalgo.go`) ranges over the database and keeps, for each algorithm,
the best definition met so far and the list of participants. Here one algorithm is followed through
the loop, in any order of the range, and compared with what an area has to agree on: the definition
of the highest priority and system ID among the routers' candidates, and each participating router
once.

The loop reads every live fragment 0, and a pseudonode has one too. Its LSP is counted under the
system ID of the router that originates it.

* `lookup_flexAlgoState` — the definition here is the one `flexAlgoState` elects;
* `elects_among_routers_iff` — when the state is the same for every order of the range and the one
  the routers' LSPs define;
* `pseudonode_definition_wins` — a pseudonode LSP with a definition of its own.
-/

namespace Goisis.Server

open Lib Packet List

variable {e : LspEntry} {algo : UInt8} {sys : SystemID} {d : ElectedDefinition} {id : LSPID}

/-! ## The loop, for one algorithm -/

/-- `FlexAlgoInfo`; the algorithm and the level are its key. -/
structure FlexAlgoInfo where
  definition : Option ElectedDefinition
  participants : List SystemID
deriving DecidableEq, Repr

/-- An LSP of the database under its ID. -/
abbrev StoredLSP := (_ : LSPID) × LspEntry

/-- The LSPs the loop reads: live, and fragment 0. -/
def electing (now : Int) (x : StoredLSP) : Bool := x.2.live now && x.1.fragmentID == 0

/-- The algorithms in the SR-Algorithm sub-TLVs of an LSP. -/
def srAlgorithms (tlvs : List TLV) : List UInt8 :=
  tlvs.flatMap fun tlv =>
    match tlv with
    | .routerCapability _ _ subs => subs.flatMap fun sub =>
        match sub with
        | .srAlgorithm algorithms => algorithms
        | _ => []
    | _ => []

/-- The algorithms an LSP counts its originator in for, each once; 0 is no Flexible Algorithm. -/
def countedAlgos (tlvs : List TLV) : List UInt8 :=
  (srAlgorithms tlvs).foldl (fun acc a => if a == 0 || acc.contains a then acc else acc ++ [a]) []

/-- The candidates the loop meets. -/
def candidates (entries : List StoredLSP) (now : Int) (algo : UInt8) : List ElectedDefinition :=
  (entries.filter (electing now)).flatMap fun x =>
    ((contributedFADs x.1.nodeID.systemID x.2.lsp.tlvs).filter (·.1 == algo)).map (·.2)

/-- The system IDs the loop appends to the participants. -/
def counted (entries : List StoredLSP) (now : Int) (algo : UInt8) : List SystemID :=
  (entries.filter (electing now)).filterMap fun x =>
    if (countedAlgos x.2.lsp.tlvs).contains algo then some x.1.nodeID.systemID else none

/-- `flexAlgoState(level, now)[algo]`, the range over the database taking the order of the list. -/
def flexAlgoInfo (entries : List StoredLSP) (now : Int) (algo : UInt8) : FlexAlgoInfo where
  definition := (candidates entries now algo).foldl
    (fun best cand => if winsElection cand best then some cand else best) none
  participants := (counted entries now algo).insertionSort hopLE

theorem lookup_elect (l : List (UInt8 × ElectedDefinition)) (m : Map UInt8 ElectedDefinition)
    (a : UInt8) :
    (l.foldl (fun out cand =>
        if winsElection cand.2 (out.lookup cand.1) then out.insert cand.1 cand.2 else out)
        m).lookup a =
      ((l.filter (·.1 == a)).map (·.2)).foldl
        (fun best cand => if winsElection cand best then some cand else best) (m.lookup a) := by
  induction l generalizing m with
  | nil => rfl
  | cons c l ih =>
    rw [foldl_cons, ih]
    by_cases hc : c.1 = a
    · subst hc
      rw [filter_cons_of_pos (by simp), map_cons, foldl_cons]
      congr 1
      split
      · rw [Map.lookup_insert_ite, if_pos rfl]
      · rfl
    · rw [filter_cons_of_neg (by simpa using hc)]
      congr 1
      split
      · rw [Map.lookup_insert_ite, if_neg fun h => hc h.symm]
      · rfl

/-- **The definition of the loop is the one `flexAlgoState` elects.** -/
theorem lookup_flexAlgoState (s : IsisServer) (level : Level) (now : Int) (algo : UInt8) :
    (s.flexAlgoState level now).lookup algo =
      (s.dbs level).bind fun db => (flexAlgoInfo db.entries now algo).definition := by
  unfold IsisServer.flexAlgoState
  cases s.dbs level with
  | none => rfl
  | some db =>
    simp only [Option.bind_some, flexAlgoInfo, lookup_elect]
    congr 1
    unfold candidates
    rw [filter_flatMap, map_flatMap]
    generalize db.entries = entries
    induction entries with
    | nil => rfl
    | cons x entries ih =>
      rw [flatMap_cons, ih]
      by_cases hx : electing now x = true
      · have hread : (!x.2.live now || x.1.fragmentID != 0) = false := by
          simpa [electing] using hx
        rw [filter_cons_of_pos hx, flatMap_cons]
        simp only [hread, Bool.false_eq_true, if_false]
      · have hread : (!x.2.live now || x.1.fragmentID != 0) = true := by
          simp only [electing, Bool.and_eq_true, beq_iff_eq, not_and] at hx
          by_cases hlive : x.2.live now = true
          · simp [hx hlive]
          · simp [hlive]
        rw [filter_cons_of_neg hx]
        simp only [hread, if_true, filter_nil, map_nil, nil_append]

/-! ## One LSP -/

/-- The definitions in the Router Capability TLVs of an LSP. -/
def advertisedFADs (tlvs : List TLV) : List FlexAlgoDefinition :=
  tlvs.flatMap fun tlv =>
    match tlv with
    | .routerCapability _ _ subs => subs.filterMap fun sub =>
        match sub with
        | .flexAlgoDef d => some d
        | _ => none
    | _ => []

/-- The candidate of a system: its first definition, ignored if it repeats a constraint. -/
def ownCandidate (sys : SystemID) (tlvs : List TLV) (algo : UInt8) : Option ElectedDefinition :=
  (((advertisedFADs tlvs).find? (·.flexAlgo == algo)).filter
    fun d => !repeatedConstraint d.subSubTLVs).map
    fun d => ⟨d.metricType, d.calcType, d.priority, sys, d.subSubTLVs⟩

/-- The first definition of each algorithm, one algorithm at a time. -/
theorem filter_firstFADs (fads : List FlexAlgoDefinition) (a : UInt8) :
    (fads.foldl (fun acc d => if acc.any (·.flexAlgo == d.flexAlgo) then acc else acc ++ [d])
      []).filter (·.flexAlgo == a) = (fads.find? (·.flexAlgo == a)).toList := by
  induction fads using reverseRecOn with
  | nil => rfl
  | append_singleton fads d ih =>
    rw [foldl_concat, find?_append]
    generalize fads.foldl (fun acc d =>
      if acc.any (·.flexAlgo == d.flexAlgo) then acc else acc ++ [d]) [] = first at ih ⊢
    by_cases hd : d.flexAlgo = a
    · subst hd
      cases hfind : fads.find? (·.flexAlgo == d.flexAlgo) with
      | none =>
        rw [hfind, Option.toList_none, filter_eq_nil_iff] at ih
        have hany : first.any (·.flexAlgo == d.flexAlgo) = false := by
          rw [any_eq_false]
          exact ih
        rw [hany, if_neg Bool.false_ne_true, filter_append, filter_eq_nil_iff.mpr ih]
        simp
      | some d' =>
        rw [hfind] at ih
        have hany : first.any (·.flexAlgo == d.flexAlgo) = true := by
          have hmem : d' ∈ first.filter (·.flexAlgo == d.flexAlgo) := by
            rw [ih]
            exact mem_cons_self
          exact List.any_eq_true.mpr ⟨d', mem_filter.mp hmem⟩
        rw [hany, if_pos rfl, ih]
        rfl
    · have hne : (d.flexAlgo == a) = false := by simpa using hd
      have hnone : [d].find? (·.flexAlgo == a) = none := by simp [hne]
      rw [hnone, Option.or_none, ← ih]
      split
      · rfl
      · simp [hne]

/-- **An LSP contributes one candidate for an algorithm, or none.** -/
theorem contributedFADs_eq (sys : SystemID) (tlvs : List TLV) (algo : UInt8) :
    ((contributedFADs sys tlvs).filter (·.1 == algo)).map (·.2) =
      (ownCandidate sys tlvs algo).toList := by
  have hfirst := filter_firstFADs (advertisedFADs tlvs) algo
  have hcontributed : contributedFADs sys tlvs = (((advertisedFADs tlvs).foldl (fun acc d =>
      if acc.any (·.flexAlgo == d.flexAlgo) then acc else acc ++ [d]) []).filter
        fun d => !repeatedConstraint d.subSubTLVs).map fun d =>
          (d.flexAlgo, ⟨d.metricType, d.calcType, d.priority, sys, d.subSubTLVs⟩) := rfl
  rw [hcontributed]
  rw [filter_map, List.map_map]
  simp only [Function.comp_def]
  rw [filter_comm, hfirst, ownCandidate]
  cases (advertisedFADs tlvs).find? (·.flexAlgo == algo) with
  | none => rfl
  | some d =>
    cases hrep : repeatedConstraint d.subSubTLVs <;> simp [hrep, Option.filter]

theorem mem_counted_foldl {as : List UInt8} {acc : List UInt8} {a : UInt8} :
    a ∈ as.foldl (fun acc a => if a == 0 || acc.contains a then acc else acc ++ [a]) acc ↔
      a ∈ acc ∨ (a ≠ 0 ∧ a ∈ as) := by
  induction as generalizing acc with
  | nil => simp
  | cons b as ih =>
    rw [foldl_cons, ih]
    by_cases hb : b = 0
    · subst hb
      simp only [beq_self_eq_true, Bool.true_or, if_true, mem_cons]
      constructor
      · rintro (h | ⟨hne, h⟩)
        · exact .inl h
        · exact .inr ⟨hne, .inr h⟩
      · rintro (h | ⟨hne, rfl | h⟩)
        · exact .inl h
        · exact absurd rfl hne
        · exact .inr ⟨hne, h⟩
    · by_cases hmem : acc.contains b = true
      · rw [if_pos (by simp only [hmem, Bool.or_true])]
        have hin : b ∈ acc := by simpa using hmem
        constructor
        · rintro (h | ⟨hne, h⟩)
          · exact .inl h
          · exact .inr ⟨hne, mem_cons_of_mem b h⟩
        · rintro (h | ⟨hne, h⟩)
          · exact .inl h
          · rcases mem_cons.mp h with rfl | h
            · exact .inl hin
            · exact .inr ⟨hne, h⟩
      · rw [if_neg (by simpa [hb] using hmem), mem_append, mem_singleton, mem_cons]
        constructor
        · rintro ((h | rfl) | ⟨hne, h⟩)
          · exact .inl h
          · exact .inr ⟨hb, .inl rfl⟩
          · exact .inr ⟨hne, .inr h⟩
        · rintro (h | ⟨hne, rfl | h⟩)
          · exact .inl (.inl h)
          · exact .inl (.inr rfl)
          · exact .inr ⟨hne, h⟩

/-- An LSP is counted in for exactly the algorithms it lists. -/
theorem contains_countedAlgos (h : algo ≠ 0) :
    (countedAlgos e.lsp.tlvs).contains algo = lspParticipatesInAlgo e algo := by
  rw [Bool.eq_iff_iff, contains_iff_mem, countedAlgos, mem_counted_foldl, srAlgorithms,
    lspParticipatesInAlgo, List.any_eq_true]
  simp only [not_mem_nil, false_or, ne_eq, h, not_false_eq_true, true_and, mem_flatMap]
  refine exists_congr fun tlv => and_congr_right fun _ => ?_
  cases tlv with
  | routerCapability _ _ subs =>
    simp only [mem_flatMap, List.any_eq_true]
    refine exists_congr fun sub => and_congr_right fun _ => ?_
    cases sub with
    | srAlgorithm algorithms => simp only [contains_iff_mem]
    | _ => simp
  | _ => simp

/-! ## What the area has to agree on -/

/-- The rank of a candidate: its priority, then its advertiser. -/
def electionRank (d : ElectedDefinition) : ℕ ×ₗ ℕ :=
  toLex (d.priority.toNat, bigEndian d.advertiser.val)

/-- The node LSP of a system, if it is live. -/
def nodeLSP (db : LSDB) (now : Int) (sys : SystemID) : Option LspEntry :=
  (db.lookup ⟨⟨sys, 0⟩, 0⟩).filter (·.live now)

/-- The candidate of a router: the one in its node LSP. -/
def routerCandidate (db : LSDB) (now : Int) (algo : UInt8) (sys : SystemID) :
    Option ElectedDefinition :=
  (nodeLSP db now sys).bind fun e => ownCandidate sys e.lsp.tlvs algo

/-- The router lists the algorithm in its node LSP. -/
def routerParticipates (db : LSDB) (now : Int) (algo : UInt8) (sys : SystemID) : Bool :=
  (nodeLSP db now sys).any (lspParticipatesInAlgo · algo)

/-- The state of an algorithm is the one the routers' LSPs define. -/
structure ElectsAmongRouters (db : LSDB) (now : Int) (algo : UInt8) (i : FlexAlgoInfo) : Prop where
  /-- The definition is a router's candidate of the highest rank. -/
  elected : ∀ d, i.definition = some d → (∃ sys, routerCandidate db now algo sys = some d) ∧
    ∀ sys c, routerCandidate db now algo sys = some c → electionRank c ≤ electionRank d
  /-- There is none only if no router has a candidate. -/
  vacant : i.definition = none → ∀ sys, routerCandidate db now algo sys = none
  mem_participants : ∀ sys, sys ∈ i.participants ↔ routerParticipates db now algo sys = true
  ascending : i.participants.Pairwise fun a b => a.val < b.val

/-- No pseudonode LSP takes part: none lists the algorithm, and the definition of one loses to a
router's, or repeats it. -/
structure PseudonodesAside (db : LSDB) (now : Int) (algo : UInt8) : Prop where
  participants : ∀ id e, db.lookup id = some e → electing now ⟨id, e⟩ = true →
    id.isNodeLSP = false → lspParticipatesInAlgo e algo = false
  candidates : ∀ id e q, db.lookup id = some e → electing now ⟨id, e⟩ = true →
    id.isNodeLSP = false → ownCandidate id.nodeID.systemID e.lsp.tlvs algo = some q →
    ∃ sys p, routerCandidate db now algo sys = some p ∧ (electionRank q < electionRank p ∨ q = p)

theorem winsElection_eq (cand : ElectedDefinition) (best : Option ElectedDefinition) :
    winsElection cand best = best.all (electionRank · < electionRank cand) := by
  cases best with
  | none => rfl
  | some best =>
    have hlex : best.advertiser.val < cand.advertiser.val ↔
        bigEndian best.advertiser.val < bigEndian cand.advertiser.val := Octets.lt_iff_bigEndian_lt
    simp only [winsElection, Option.all_some, electionRank, Prod.Lex.toLex_lt_toLex]
    by_cases hp : cand.priority = best.priority
    · simp [hp, hlex]
    have hne : best.priority.toNat ≠ cand.priority.toNat := fun h =>
      hp (UInt8.toNat_inj.mp h.symm)
    simp [hp, hne, UInt8.lt_iff_toNat_lt]

theorem definition_flexAlgoInfo (entries : List StoredLSP) (now : Int) (algo : UInt8) :
    (flexAlgoInfo entries now algo).definition =
      runningMax electionRank (candidates entries now algo) := by
  have hturn : (fun best cand => if winsElection cand best then some cand else best) =
      keepBest electionRank := by
    funext best cand
    rw [winsElection_eq]
    rfl
  rw [runningMax, ← hturn]
  rfl

/-- A rank tells the advertiser. -/
theorem advertiser_of_rank {c : ElectedDefinition} (h : electionRank c = electionRank d) :
    c.advertiser = d.advertiser :=
  Octets.eq_of_bigEndian_eq (congrArg (fun r => (ofLex r).2) h)

variable {x : StoredLSP}

section State

variable {db : LSDB} {now : Int} {entries : List StoredLSP} {i j : FlexAlgoInfo}

theorem advertiser_routerCandidate (h : routerCandidate db now algo sys = some d) :
    d.advertiser = sys := by
  obtain ⟨e, -, hown⟩ := Option.bind_eq_some_iff.mp h
  obtain ⟨fad, -, rfl⟩ := Option.map_eq_some_iff.mp hown
  rfl

theorem ElectsAmongRouters.nodup (hi : ElectsAmongRouters db now algo i) : i.participants.Nodup :=
  hi.ascending.imp fun {a b} hab heq => by
    rw [heq] at hab
    exact List.lt_irrefl _ hab

/-- **There is one such state.** -/
theorem ElectsAmongRouters.unique (hi : ElectsAmongRouters db now algo i)
    (hj : ElectsAmongRouters db now algo j) : i = j := by
  have hdef : i.definition = j.definition := by
    cases hdi : i.definition with
    | none =>
      cases hdj : j.definition with
      | none => rfl
      | some d =>
        obtain ⟨sys, hd⟩ := (hj.elected d hdj).1
        rw [hi.vacant hdi sys] at hd
        cases hd
    | some c =>
      obtain ⟨⟨sys, hc⟩, hmax⟩ := hi.elected c hdi
      cases hdj : j.definition with
      | none =>
        rw [hj.vacant hdj sys] at hc
        cases hc
      | some d =>
        obtain ⟨⟨sys', hd⟩, hmax'⟩ := hj.elected d hdj
        have hadv := advertiser_of_rank (le_antisymm (hmax' sys c hc) (hmax sys' d hd))
        rw [advertiser_routerCandidate hc, advertiser_routerCandidate hd] at hadv
        rw [← hc, ← hd, hadv]
  have hsorted : ∀ {k : FlexAlgoInfo}, ElectsAmongRouters db now algo k →
      k.participants.Pairwise hopLE := fun hk => hk.ascending.imp fun h => List.le_of_lt h
  have hpart : i.participants = j.participants := by
    refine Perm.eq_of_pairwise' (hsorted hi) (hsorted hj) ?_
    refine (perm_ext_iff_of_nodup hi.nodup hj.nodup).mpr fun sys => ?_
    rw [hi.mem_participants, hj.mem_participants]
  cases i
  cases j
  simp only at hdef hpart
  rw [hdef, hpart]

theorem mem_candidates : d ∈ candidates entries now algo ↔ ∃ x ∈ entries, electing now x = true ∧
      ownCandidate x.1.nodeID.systemID x.2.lsp.tlvs algo = some d := by
  simp only [candidates, contributedFADs_eq, mem_flatMap, mem_filter, Option.mem_toList, and_assoc]

theorem mem_counted (halgo : algo ≠ 0) : sys ∈ counted entries now algo ↔
    ∃ x ∈ entries, electing now x = true ∧ lspParticipatesInAlgo x.2 algo = true ∧
      x.1.nodeID.systemID = sys := by
  simp only [counted, mem_filterMap, mem_filter, contains_countedAlgos halgo, and_assoc]
  refine exists_congr fun x => and_congr_right fun _ => and_congr_right fun _ => ?_
  cases lspParticipatesInAlgo x.2 algo <;> simp

theorem mem_entries (hperm : entries.Perm db.entries) : x ∈ entries ↔ db.lookup x.1 = some x.2 := by
  rw [hperm.mem_iff]
  exact AList.mem_lookup_iff.symm

theorem nodeLSP_eq_some : nodeLSP db now sys = some e ↔
    db.lookup ⟨⟨sys, 0⟩, 0⟩ = some e ∧ electing now ⟨⟨⟨sys, 0⟩, 0⟩, e⟩ = true := by
  simp [nodeLSP, Option.filter_eq_some_iff, electing]

/-- A node LSP's ID is that of its system. -/
theorem eq_of_isNodeLSP (hx : electing now x = true) (hnode : x.1.isNodeLSP = true) :
    x.1 = ⟨⟨x.1.nodeID.systemID, 0⟩, 0⟩ := by
  obtain ⟨⟨⟨sys, pn⟩, frag⟩, e⟩ := x
  simp only [electing, Bool.and_eq_true, beq_iff_eq] at hx
  simp only [LSPID.isNodeLSP, beq_iff_eq] at hnode
  rw [hnode, hx.2]

/-- A router's candidate is met by the loop. -/
theorem mem_candidates_of_router (hperm : entries.Perm db.entries)
    (h : routerCandidate db now algo sys = some d) : d ∈ candidates entries now algo := by
  obtain ⟨e, he, hown⟩ := Option.bind_eq_some_iff.mp h
  obtain ⟨hlook, helect⟩ := nodeLSP_eq_some.mp he
  exact mem_candidates.mpr ⟨⟨⟨⟨sys, 0⟩, 0⟩, e⟩, (mem_entries hperm).mpr hlook, helect, hown⟩

/-- With the pseudonodes aside, the loop counts every router once. -/
theorem nodup_counted (halgo : algo ≠ 0) (h : PseudonodesAside db now algo)
    (hperm : entries.Perm db.entries) : (counted entries now algo).Nodup := by
  have hkeys : entries.Pairwise fun x y => x.1 ≠ y.1 := by
    rw [← pairwise_map]
    exact (hperm.map Sigma.fst).nodup_iff.mpr db.nodupKeys
  have hid : ∀ x ∈ entries.filter (electing now), lspParticipatesInAlgo x.2 algo = true →
      x.1 = ⟨⟨x.1.nodeID.systemID, 0⟩, 0⟩ := by
    intro x hx hpart
    obtain ⟨hx, helect⟩ := mem_filter.mp hx
    cases hnode : x.1.isNodeLSP with
    | true => exact eq_of_isNodeLSP helect hnode
    | false =>
      rw [h.participants x.1 x.2 ((mem_entries hperm).mp hx) helect hnode] at hpart
      cases hpart
  unfold counted Nodup
  rw [pairwise_filterMap]
  refine List.Pairwise.imp_of_mem ?_ (hkeys.filter _)
  intro x y hx hy hne b hb b' hb' heq
  rw [contains_countedAlgos halgo, Option.ite_none_right_eq_some] at hb hb'
  refine hne ?_
  rw [hid x hx hb.1, hid y hy hb'.1, Option.some.inj hb.2, Option.some.inj hb'.2, heq]

/-- With the pseudonodes aside, the loop elects among the routers. -/
theorem electsAmongRouters_of_aside (halgo : algo ≠ 0) (h : PseudonodesAside db now algo)
    (hperm : entries.Perm db.entries) :
    ElectsAmongRouters db now algo (flexAlgoInfo entries now algo) where
  elected d hd := by
    rw [definition_flexAlgoInfo] at hd
    obtain ⟨hmem, hmax⟩ := runningMax_spec hd
    refine ⟨?_, fun sys c hc => hmax c (mem_candidates_of_router hperm hc)⟩
    obtain ⟨x, hx, helect, hown⟩ := mem_candidates.mp hmem
    have hlook := (mem_entries hperm).mp hx
    cases hnode : x.1.isNodeLSP with
    | true =>
      refine ⟨x.1.nodeID.systemID, Option.bind_eq_some_iff.mpr ⟨x.2, nodeLSP_eq_some.mpr ?_, hown⟩⟩
      rw [← eq_of_isNodeLSP helect hnode]
      exact ⟨hlook, helect⟩
    | false =>
      obtain ⟨sys, p, hp, hlt | rfl⟩ := h.candidates x.1 x.2 d hlook helect hnode hown
      · exact absurd (hmax p (mem_candidates_of_router hperm hp)) (not_le.mpr hlt)
      · exact ⟨sys, hp⟩
  vacant hnone sys := by
    rw [definition_flexAlgoInfo, runningMax_eq_none] at hnone
    cases hc : routerCandidate db now algo sys with
    | none => rfl
    | some c =>
      have hmem := mem_candidates_of_router hperm hc
      rw [hnone] at hmem
      cases hmem
  mem_participants sys := by
    show sys ∈ (counted entries now algo).insertionSort hopLE ↔ _
    rw [mem_insertionSort, mem_counted halgo, routerParticipates, Option.any_eq_true]
    constructor
    · rintro ⟨x, hx, helect, hpart, rfl⟩
      have hlook := (mem_entries hperm).mp hx
      cases hnode : x.1.isNodeLSP with
      | true =>
        refine ⟨x.2, nodeLSP_eq_some.mpr ?_, hpart⟩
        rw [← eq_of_isNodeLSP helect hnode]
        exact ⟨hlook, helect⟩
      | false =>
        rw [h.participants x.1 x.2 hlook helect hnode] at hpart
        cases hpart
    · rintro ⟨e, he, hpart⟩
      obtain ⟨hlook, helect⟩ := nodeLSP_eq_some.mp he
      exact ⟨⟨⟨⟨sys, 0⟩, 0⟩, e⟩, (mem_entries hperm).mpr hlook, helect, hpart, rfl⟩
  ascending := by
    have hsorted : (flexAlgoInfo entries now algo).participants.Pairwise hopLE :=
      pairwise_insertionSort hopLE _
    have hnodup : (flexAlgoInfo entries now algo).participants.Nodup :=
      (perm_insertionSort hopLE _).nodup_iff.mpr (nodup_counted halgo h hperm)
    refine (hsorted.and hnodup).imp fun {a b} hab => ?_
    by_contra hlt
    exact hab.2 (Subtype.ext (List.le_antisymm hab.1 (List.not_lt.mp hlt)))

theorem eq_of_nodup_filterMap {A B : Type} {f : A → Option B} {l : List A} {x y : A} {b : B}
    (h : (l.filterMap f).Nodup) (hx : x ∈ l) (hy : y ∈ l) (hfx : f x = some b)
    (hfy : f y = some b) : x = y := by
  obtain ⟨before, after, rfl⟩ := append_of_mem hx
  rw [filterMap_append, filterMap_cons_some hfx, nodup_append, nodup_cons] at h
  rcases mem_append.mp hy with hy | hy
  · exact absurd rfl (h.2.2 b (mem_filterMap.mpr ⟨y, hy, hfy⟩) b mem_cons_self)
  rcases mem_cons.mp hy with rfl | hy
  · rfl
  · exact absurd (mem_filterMap.mpr ⟨y, hy, hfy⟩) h.2.1.1

/-- A pseudonode LSP that lists the algorithm counts its router twice, or one that does not
participate. -/
theorem participants_aside (halgo : algo ≠ 0)
    (h : ElectsAmongRouters db now algo (flexAlgoInfo db.entries now algo))
    (hlook : db.lookup id = some e) (helect : electing now ⟨id, e⟩ = true)
    (hnode : id.isNodeLSP = false) : lspParticipatesInAlgo e algo = false := by
  by_contra hpart
  rw [Bool.not_eq_false] at hpart
  have hmem : (⟨id, e⟩ : StoredLSP) ∈ db.entries.filter (electing now) :=
    mem_filter.mpr ⟨AList.mem_lookup_iff.mp hlook, helect⟩
  have hin : id.nodeID.systemID ∈ (flexAlgoInfo db.entries now algo).participants :=
    (mem_insertionSort hopLE).mpr ((mem_counted halgo).mpr
      ⟨⟨id, e⟩, AList.mem_lookup_iff.mp hlook, helect, hpart, rfl⟩)
  obtain ⟨e₀, he₀, hpart₀⟩ := Option.any_eq_true _ _ |>.mp ((h.mem_participants _).mp hin)
  obtain ⟨hlook₀, helect₀⟩ := nodeLSP_eq_some.mp he₀
  have hmem₀ : (⟨⟨⟨id.nodeID.systemID, 0⟩, 0⟩, e₀⟩ : StoredLSP) ∈ db.entries.filter
      (electing now) :=
    mem_filter.mpr ⟨AList.mem_lookup_iff.mp hlook₀, helect₀⟩
  have hnodup : (counted db.entries now algo).Nodup :=
    (perm_insertionSort hopLE _).nodup_iff.mp h.nodup
  have heq := eq_of_nodup_filterMap hnodup hmem hmem₀
    (by rw [contains_countedAlgos halgo, hpart, if_pos rfl])
    (by rw [contains_countedAlgos halgo, hpart₀, if_pos rfl])
  have hid : id = ⟨⟨id.nodeID.systemID, 0⟩, 0⟩ := congrArg Sigma.fst heq
  rw [hid] at hnode
  cases hnode

/-- A definition of a pseudonode LSP that no router's outranks wins the election when it is met
first. -/
theorem candidates_aside
    (h : ∀ entries : List StoredLSP, entries.Perm db.entries → flexAlgoInfo entries now algo = i)
    (hi : ElectsAmongRouters db now algo i) {q : ElectedDefinition} (hlook : db.lookup id = some e)
    (helect : electing now ⟨id, e⟩ = true)
    (hq : ownCandidate id.nodeID.systemID e.lsp.tlvs algo = some q) :
    ∃ sys p, routerCandidate db now algo sys = some p ∧
      (electionRank q < electionRank p ∨ q = p) := by
  obtain ⟨rest, hperm⟩ : ∃ rest, db.entries.Perm (⟨id, e⟩ :: rest) :=
    ⟨_, perm_cons_erase (AList.mem_lookup_iff.mp hlook)⟩
  have hcons : candidates (⟨id, e⟩ :: rest) now algo = q :: candidates rest now algo := by
    rw [candidates, filter_cons_of_pos helect, flatMap_cons, contributedFADs_eq, hq]
    rfl
  have hinfo : i.definition = runningMax electionRank (q :: candidates rest now algo) := by
    rw [← hcons, ← definition_flexAlgoInfo, h _ hperm.symm]
  cases hd : i.definition with
  | none =>
    rw [hd] at hinfo
    cases runningMax_eq_none.mp hinfo.symm
  | some d =>
    obtain ⟨⟨sys, hp⟩, -⟩ := hi.elected d hd
    rw [hd] at hinfo
    obtain ⟨-, hmax⟩ := runningMax_spec hinfo.symm
    refine ⟨sys, d, hp, ?_⟩
    rcases (hmax q mem_cons_self).lt_or_eq with hlt | heq
    · exact .inl hlt
    have hfirst := runningMax_cons_of_le fun b hb =>
      heq ▸ hmax b (mem_cons_of_mem q hb)
    rw [hfirst] at hinfo
    exact .inr (Option.some.inj hinfo.symm)

/-- **The election is a function of the routers' definitions exactly if no pseudonode LSP takes
part**: for every database and every Flexible Algorithm, all orders of the range give one state,
with the definition of the highest priority and system ID among the routers' candidates and each
participating router once in ascending order, if and only if no pseudonode LSP lists the algorithm,
and the definition of one is outranked by a router's, or repeats one. The definition is the one
`flexAlgoState` has at a level with that database. -/
theorem elects_among_routers_iff (db : LSDB) (now : Int) (halgo : algo ≠ 0) :
    ((∃ i, ElectsAmongRouters db now algo i ∧
      ∀ entries : List StoredLSP, entries.Perm db.entries → flexAlgoInfo entries now algo = i) ↔
    PseudonodesAside db now algo) ∧
    ∀ (s : IsisServer) level, s.dbs level = some db →
      (s.flexAlgoState level now).lookup algo = (flexAlgoInfo db.entries now algo).definition := by
  refine ⟨⟨?_, ?_⟩, fun s level hdb => by rw [lookup_flexAlgoState, hdb]; rfl⟩
  · rintro ⟨i, hi, h⟩
    exact
      { participants := fun id e hlook helect hnode =>
          participants_aside halgo (h _ (.refl _) ▸ hi) hlook helect hnode
        candidates := fun id e q hlook helect _ hq => candidates_aside h hi hlook helect hq }
  · intro h
    refine ⟨_, electsAmongRouters_of_aside halgo h (.refl _), fun entries hperm => ?_⟩
    exact (electsAmongRouters_of_aside halgo h hperm).unique
      (electsAmongRouters_of_aside halgo h (.refl _))

end State

/-! ## A pseudonode with a definition -/

/-- A Router Capability TLV that lists algorithm 128 and defines it with a metric type. -/
def definesAlgo128 (metricType : UInt8) : TLV :=
  .routerCapability (.v4 (Octets.zero 4)) 0
    [.srAlgorithm [128], .flexAlgoDef ⟨128, metricType, 0, 128, []⟩]

/-- The LSPs of one router, which defines the algorithm. -/
def definingRouter : LSDB :=
  announcedDB .level1 0 [(⟨octets6 0 0 0 0 0 1, 0⟩, [definesAlgo128 0])]

/-- The same router, DIS of a LAN, with a second definition in its pseudonode LSP. -/
def definingPseudonode : LSDB :=
  announcedDB .level1 0 [(⟨octets6 0 0 0 0 0 1, 0⟩, [definesAlgo128 0]),
    (⟨octets6 0 0 0 0 0 1, 1⟩, [definesAlgo128 1])]

/-- One router elects its own definition. -/
theorem elects_among_routers_one :
    (128 : UInt8) ≠ 0 ∧ ∃ i, ElectsAmongRouters definingRouter 0 128 i ∧
      ∀ entries : List StoredLSP, entries.Perm definingRouter.entries →
        flexAlgoInfo entries 0 128 = i := by
  have hnode : ∀ id e, definingRouter.lookup id = some e → id.isNodeLSP = true := by
    intro id e h
    have hmem := AList.mem_lookup_iff.mp h
    rw [show definingRouter.entries = [⟨⟨⟨octets6 0 0 0 0 0 1, 0⟩, 0⟩, _⟩] from rfl,
      mem_singleton] at hmem
    cases hmem
    rfl
  refine ⟨by decide, (elects_among_routers_iff definingRouter 0 (by decide)).1.mpr ⟨?_, ?_⟩⟩
  · intro id e h _ hpseudo
    rw [hnode id e h] at hpseudo
    cases hpseudo
  · intro id e q h _ hpseudo
    rw [hnode id e h] at hpseudo
    cases hpseudo

/-- **A pseudonode's definition competes with its router's**: at the same priority and system ID the
order of the range decides, and the router is counted twice. -/
theorem pseudonode_definition_wins :
    ((flexAlgoInfo definingPseudonode.entries 0 128).definition.map (·.metricType)) ≠
        ((flexAlgoInfo definingPseudonode.entries.reverse 0 128).definition.map (·.metricType)) ∧
      (flexAlgoInfo definingPseudonode.entries 0 128).participants =
        [octets6 0 0 0 0 0 1, octets6 0 0 0 0 0 1] := by
  decide

end Goisis.Server
