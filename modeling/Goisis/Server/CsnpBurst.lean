import Goisis.Packet.AuthPatch
import Goisis.Server.Originate
import Goisis.Server.Tiling
import Goisis.Server.WireImage

/-!
# A burst of CSNPs on the wire

`sendSNP` appends the placeholder of an Authentication TLV to a sequence numbers PDU, serializes it
and patches the digest in. `sendCSNP` leaves room for that TLV when it packs the database, so every
PDU of a burst fits the receive buffer and the circuit, and decodes to the entries that were packed.

* `fits_packCSNPs` — the packing loop keeps what waits within its budget, since no TLV of at most
  fifteen entries is over it.
* `sendSNP_csnp` — a CSNP of LSP Entries TLVs is sent, and decodes to its own entries.
* `csnp_burst` — a burst runs from the first LSP ID to the last without gap or overlap, lists every
  entry of the database once, in the PDU whose range has its ID, and every PDU of it fits and
  decodes back.
-/

namespace Goisis.Server

open Lib Packet IsisServer List

variable {es : List LSPEntry} {level : Level} {p : CSNP}

variable {tlvs : List TLV}

/-- The PDU `sendSNP` serializes: a sequence numbers PDU with one more TLV. -/
def snpWith : PDU → TLV → PDU
  | .csnp p, t => .csnp { p with tlvs := p.tlvs ++ [t] }
  | .psnp p, t => .psnp { p with tlvs := p.tlvs ++ [t] }
  | p, _ => p

variable (s : IsisServer)

/-- `sendSNP(c, level, pdu)` up to the transport: the octets it sends. -/
def IsisServer.sendSNP (level : Level) (pdu : PDU) : Except CodecError Bytes :=
  let spec := s.authKey level
  let pdu := if spec.on then snpWith pdu (authTLVPlaceholder spec) else pdu
  match pdu.serialize with
  | .error e => .error e
  | .ok wire =>
    if spec.on then
      patchAuth s.hmac wire (headerLen pdu.pduType) spec.algo spec.keyID spec.key false
    else .ok wire

/-! ## Sizes -/

/-- An LSP Entries TLV that `chunkEntries` makes. -/
def EntriesTLV (t : TLV) : Prop := ∃ es, t = .lspEntries es ∧ es.length ≤ maxLSPEntriesPerTLV

theorem length_encodedEntries (es : List LSPEntry) :
    (es.flatMap LSPEntry.encode).length = 16 * es.length := by
  induction es with
  | nil => rfl
  | cons e es ih =>
    rw [flatMap_cons, length_append, e.length_encode, ih, length_cons]
    omega

theorem serialize_entriesTLV {t : TLV} (h : EntriesTLV t) :
    ∃ b, t.serialize = .ok b ∧ b.length ≤ 242 := by
  obtain ⟨es, rfl, hlen⟩ := h
  have hmax : maxLSPEntriesPerTLV = 15 := rfl
  have hvalue : (es.flatMap LSPEntry.encode).length ≤ 240 := by
    rw [length_encodedEntries]
    omega
  obtain ⟨b, hb, hblen⟩ := encodeTLV_of_le tlvTypeLSPEntries hvalue (by decide)
  refine ⟨b, ?_, hblen⟩
  simp only [TLV.serialize]
  rw [if_neg (by omega), hb]

theorem tlvLen_of_serialize {t : TLV} {b : Bytes} (h : t.serialize = .ok b) :
    tlvLen t = b.length := by
  rw [tlvLen, h]

theorem tlvsLen_append (a b : List TLV) : tlvsLen (a ++ b) = tlvsLen a + tlvsLen b := by
  simp [tlvsLen]

theorem tlvsLen_singleton (t : TLV) : tlvsLen [t] = tlvLen t := by
  simp [tlvsLen]

/-- TLVs that serialize make an area of the sum of their lengths. -/
theorem serializeTLVs_length (h : ∀ t ∈ tlvs, ∃ b, t.serialize = .ok b) :
    ∃ area, serializeTLVs tlvs = .ok area ∧ area.length = tlvsLen tlvs := by
  induction tlvs with
  | nil => exact ⟨[], rfl, rfl⟩
  | cons t ts ih =>
    obtain ⟨b, hb⟩ := h t mem_cons_self
    obtain ⟨area, harea, hlen⟩ := ih fun u hu => h u (mem_cons_of_mem _ hu)
    refine ⟨b ++ area, writeAll_cons.mpr ⟨b, area, hb, harea, rfl⟩, ?_⟩
    simp only [length_append, hlen, tlvsLen, map_cons, sum_cons, tlvLen_of_serialize hb]

theorem length_chunkEntries {n : ℕ} {chunk : List LSPEntry} (h : chunk ∈ chunkEntries n es) :
    chunk.length ≤ maxLSPEntriesPerTLV := by
  induction n generalizing es with
  | zero => cases es <;> cases h
  | succ n ih =>
    cases es with
    | nil => cases h
    | cons e es =>
      rcases mem_cons.mp h with rfl | h
      · exact length_take_le _ _
      · exact ih h

/-- **The packing loop stays within its budget**, when one TLV does. -/
theorem fits_packCSNPs {source : NodeID} {budget : Int} {chunks : List (List LSPEntry)} {size : Int}
    {start last : LSPID} (hbudget : 242 ≤ budget)
    (hchunks : ∀ chunk ∈ chunks, chunk.length ≤ maxLSPEntriesPerTLV)
    (htlvs : ∀ t ∈ tlvs, EntriesTLV t) (hsize : size = tlvsLen tlvs) (hfits : size ≤ budget)
    (hp : p ∈ packCSNPs level source budget chunks tlvs size start last) :
    (tlvsLen p.tlvs : Int) ≤ budget ∧ ∀ t ∈ p.tlvs, EntriesTLV t := by
  induction chunks generalizing tlvs size start last with
  | nil =>
    rw [packCSNPs, mem_singleton] at hp
    subst hp
    exact ⟨hsize ▸ hfits, htlvs⟩
  | cons chunk rest ih =>
    have hchunk : EntriesTLV (.lspEntries chunk) := ⟨chunk, rfl, hchunks chunk mem_cons_self⟩
    have hrest : ∀ ch ∈ rest, ch.length ≤ maxLSPEntriesPerTLV :=
      fun ch hch => hchunks ch (mem_cons_of_mem _ hch)
    have hone : (tlvLen (.lspEntries chunk) : Int) ≤ 242 := by
      obtain ⟨b, hb, hlen⟩ := serialize_entriesTLV hchunk
      rw [tlvLen_of_serialize hb]
      exact_mod_cast hlen
    simp only [packCSNPs] at hp
    split at hp
    · rcases mem_cons.mp hp with rfl | hp
      · exact ⟨hsize ▸ hfits, htlvs⟩
      · refine ih hrest ?_ ?_ (by omega) hp
        · intro t ht
          rw [mem_singleton.mp ht]
          exact hchunk
        · rw [tlvsLen_singleton]
    · rename_i hroom
      refine ih hrest ?_ ?_ ?_ hp
      · intro t ht
        rcases mem_append.mp ht with ht | ht
        · exact htlvs t ht
        · rw [mem_singleton.mp ht]
          exact hchunk
      · rw [tlvsLen_append, tlvsLen_singleton, hsize]
        push_cast
        rfl
      · -- nothing was waiting, or there was room behind it
        by_cases hnil : tlvs = []
        · subst hnil
          rw [hsize]
          simp only [tlvsLen, map_nil, sum_nil, Nat.cast_zero]
          omega
        · have hle : ¬size + (tlvLen (.lspEntries chunk) : Int) > budget :=
            fun hover => hroom ⟨hover, hnil⟩
          omega

/-! ## One PDU of a burst -/

/-- The room `sendCSNP` leaves for the Authentication TLV. -/
def IsisServer.authLen (level : Level) : Nat :=
  if (s.authKey level).on then tlvLen (authTLVPlaceholder (s.authKey level)) else 0

theorem serialize_placeholder (spec : AuthSpec) :
    ∃ b, (authTLVPlaceholder spec).serialize = .ok b ∧ b.length ≤ 69 := by
  have hlen : (spec.algo.authType :: spec.algo.placeholder spec.keyID).length ≤ 67 := by
    have := length_placeholder spec.algo spec.keyID
    rw [length_cons]
    omega
  exact encodeTLV_of_le tlvTypeAuthentication hlen (by decide)

theorem authLen_le (level : Level) : s.authLen level ≤ 69 := by
  obtain ⟨b, hb, hlen⟩ := serialize_placeholder (s.authKey level)
  unfold authLen
  split
  · rw [tlvLen_of_serialize hb]
    exact hlen
  · exact Nat.zero_le _

/-- A digest is no LSP entry. -/
theorem listedEntries_withoutDigest (tlvs : List TLV) :
    listedEntries (tlvs.map TLV.withoutDigest) = listedEntries tlvs := by
  unfold listedEntries
  rw [flatMap_map]
  refine flatMap_congr fun t _ => ?_
  cases t <;> rfl

theorem authentication?_of_entries (h : ∀ t ∈ tlvs, EntriesTLV t) :
    tlvs.filterMap TLV.authentication? = [] := by
  rw [filterMap_eq_nil_iff]
  intro t ht
  obtain ⟨es, rfl, -⟩ := h t ht
  rfl

/-- **A CSNP of LSP Entries TLVs is sent and read back**: its own range and entries, in as many
octets as its parts have. -/
theorem sendSNP_csnp (hp : ∀ t ∈ p.tlvs, EntriesTLV t)
    (hfits : csnpHeaderLen + tlvsLen p.tlvs + s.authLen level ≤ 65535) :
    ∃ wire q, s.sendSNP level (.csnp p) = .ok wire ∧
      wire.length = csnpHeaderLen + tlvsLen p.tlvs + s.authLen level ∧
      decodePDU wire = .ok (.csnp q) ∧
      (q.level, q.sourceID, q.startLSP, q.endLSP) = (p.level, p.sourceID, p.startLSP, p.endLSP) ∧
      listedEntries q.tlvs = listedEntries p.tlvs := by
  have hok : ∀ t ∈ p.tlvs, ∃ b, t.serialize = .ok b := fun t ht =>
    (serialize_entriesTLV (hp t ht)).imp fun _ h => h.1
  have hcanonical : ∀ t ∈ p.tlvs, t.Canonical := by
    intro t ht
    obtain ⟨es, rfl, -⟩ := hp t ht
    exact trivial
  have hheader : ∀ q : CSNP, headerLen (PDU.pduType (.csnp q)) = csnpHeaderLen := fun q => by
    cases hl : q.level <;> simp [PDU.pduType, CSNP.pduType, hl, headerLen]
  cases hon : (s.authKey level).on with
  | false =>
    have hauth : s.authLen level = 0 := by simp [authLen, hon]
    obtain ⟨area, harea, hlen⟩ := serializeTLVs_length hok
    obtain ⟨raw, hraw, hrawlen⟩ := PDU.serialize_of_tlvs (p := .csnp p) harea
    rw [hheader, hlen] at hrawlen
    have hsent : s.sendSNP level (.csnp p) = .ok raw := by
      simp [sendSNP, hon, hraw]
    exact ⟨raw, p, hsent, by omega, CSNP.decodesBack hcanonical hraw (by omega), rfl, rfl⟩
  | true =>
    obtain ⟨b, hb, -⟩ := serialize_placeholder (s.authKey level)
    have hauth : s.authLen level = tlvLen (authTLVPlaceholder (s.authKey level)) := by
      simp [authLen, hon]
    generalize hq : ({ p with tlvs := p.tlvs ++ [authTLVPlaceholder (s.authKey level)] } : CSNP) = q
    have htlvs : q.tlvs = p.tlvs ++ [authTLVPlaceholder (s.authKey level)] := by rw [← hq]
    have hqok : ∀ t ∈ q.tlvs, ∃ b, t.serialize = .ok b := by
      intro t ht
      rw [htlvs, mem_append, mem_singleton] at ht
      rcases ht with ht | rfl
      · exact hok t ht
      · exact ⟨b, hb⟩
    have hqcanonical : ∀ t ∈ q.tlvs, t.Canonical := by
      intro t ht
      rw [htlvs, mem_append, mem_singleton] at ht
      rcases ht with ht | rfl
      · exact hcanonical t ht
      · exact trivial
    have hone : (PDU.csnp q).tlvs.filterMap TLV.authentication? =
        [((s.authKey level).algo.authType,
          (s.authKey level).algo.placeholder (s.authKey level).keyID)] := by
      have happ : (PDU.csnp q).tlvs = p.tlvs ++ [authTLVPlaceholder (s.authKey level)] := htlvs
      rw [happ, filterMap_append, authentication?_of_entries hp]
      rfl
    obtain ⟨area, harea, hlen⟩ := serializeTLVs_length hqok
    obtain ⟨raw, hraw, hrawlen⟩ := PDU.serialize_of_tlvs (p := .csnp q) harea
    rw [hheader, hlen, htlvs, tlvsLen_append, tlvsLen_singleton] at hrawlen
    obtain ⟨wire, tlvs, hwire, hwirelen, hdecode, hsame⟩ := patchAuth_decodes hraw
      (CSNP.decodesBack hqcanonical hraw (by omega)) hone s.hmac (s.authKey level).key false
    have hsent : s.sendSNP level (.csnp p) = .ok wire := by
      simp only [sendSNP, hon, if_true, snpWith, hq, hraw]
      exact hwire
    refine ⟨wire, { q with tlvs := tlvs }, hsent, by omega, hdecode, by rw [← hq], ?_⟩
    have hlisted : listedEntries tlvs = listedEntries q.tlvs := by
      have hmap : tlvs.map TLV.withoutDigest = q.tlvs.map TLV.withoutDigest := hsame
      rw [← listedEntries_withoutDigest, hmap, listedEntries_withoutDigest]
    rw [hlisted, htlvs, listedEntries_append]
    exact append_nil _

/-! ## Whole bursts -/

/-- Ranges that tile start at `n`, follow each other and end at the last LSP ID. -/
theorem Tiles.consecutive {n : ℕ} {ps : List CSNP} (h : Tiles n ps) :
    (∃ p, ps.head? = some p ∧ lspNum p.startLSP = n) ∧
      (∃ p, ps.getLast? = some p ∧ p.endLSP = lastLSPID) ∧
      ps.IsChain fun p q => lspNum q.startLSP = lspNum p.endLSP + 1 := by
  induction h with
  | @last n p hstart hend hlists =>
    exact ⟨⟨p, rfl, hstart⟩, ⟨p, rfl, hend⟩, List.IsChain.singleton p⟩
  | @cons n p ps hstart hle hlists hrest ih =>
    obtain ⟨⟨q, hq, hqstart⟩, ⟨r, hr, hrend⟩, hchain⟩ := ih
    obtain ⟨ps, rfl⟩ := head?_eq_some_iff.mp hq
    refine ⟨⟨p, rfl, hstart⟩, ⟨r, ?_, hrend⟩, ?_⟩
    · rw [getLast?_cons_cons, hr]
    · exact isChain_cons_cons.mpr ⟨hqstart, hchain⟩

/-- An entry of a strictly ascending list is the only one with its LSP ID. -/
theorem filter_of_ascending (h : Ascending es) {x : LSPEntry} (hx : x ∈ es) :
    es.filter (fun y => decide (y.lspID = x.lspID)) = [x] := by
  induction es with
  | nil => cases hx
  | cons e es ih =>
    obtain ⟨hhead, htail⟩ := pairwise_cons.mp h
    rcases mem_cons.mp hx with rfl | hx
    · have hrest : es.filter (fun y => decide (y.lspID = x.lspID)) = [] := by
        rw [filter_eq_nil_iff]
        intro y hy heq
        have hlt := hhead y hy
        rw [of_decide_eq_true heq] at hlt
        exact absurd hlt (lt_irrefl _)
      rw [filter_cons_of_pos (by simp), hrest]
    · have hne : ¬decide (e.lspID = x.lspID) = true := by
        intro heq
        have hlt := hhead x hx
        rw [of_decide_eq_true heq] at hlt
        exact absurd hlt (lt_irrefl _)
      rw [filter_cons, if_neg hne, ih htail hx]

section Burst

variable {s : IsisServer} {c : Circuit} {now : Int}

/-- **An entry of the database is listed once**, by the PDU whose range has its ID. -/
theorem listed_once {id : LSPID} {e : LspEntry} (h : s.entryAt level id = some e) :
    ∃ before p after, s.sendCSNP c level now = before ++ p :: after ∧
      inRange id p.startLSP p.endLSP = true ∧
      (listedEntries p.tlvs).filter (fun x => decide (x.lspID = id)) = [describe id e now] ∧
      ∀ q ∈ before ++ after, ∀ x ∈ listedEntries q.tlvs, x.lspID ≠ id := by
  obtain ⟨before, p, after, heq, hcov, -, hothers⟩ :=
    (tiles_sendCSNP s c level now).exists_unique (Nat.zero_le (lspNum id))
  have hother : ∀ q ∈ before ++ after, ∀ x ∈ listedEntries q.tlvs, x.lspID ≠ id := by
    rintro q hq x hx rfl
    obtain ⟨hnot, hown⟩ := hothers q hq
    exact absurd (hown x hx) (by rw [← CSNP.covers, hnot]; simp)
  have hnone : ∀ ps ⊆ before ++ after,
      (ps.flatMap (listedEntries ·.tlvs)).filter (fun x => decide (x.lspID = id)) = [] := by
    intro ps hps
    rw [filter_eq_nil_iff]
    intro x hx
    obtain ⟨q, hq, hxq⟩ := mem_flatMap.mp hx
    simpa using hother q (hps hq) x hxq
  have hall : (s.describeDatabase level now).filter (fun x => decide (x.lspID = id)) =
      [describe id e now] :=
    filter_of_ascending ascending_describeDatabase (describe_mem_describeDatabase h)
  rw [← listed_sendCSNP s c level now, heq, flatMap_append, flatMap_cons,
    filter_append, filter_append] at hall
  refine ⟨before, p, after, heq, hcov, ?_, hother⟩
  rwa [hnone before (subset_append_left _ _), hnone after (subset_append_right _ _),
    nil_append, append_nil] at hall

/-- The PDUs of a burst are within the budget of `sendCSNP`. -/
theorem fits_sendCSNP (hmtu : 512 ≤ c.cfg.mtu - 3) (hp : p ∈ s.sendCSNP c level now) :
    (csnpHeaderLen + tlvsLen p.tlvs + s.authLen level : Int) ≤ min 1492 (c.cfg.mtu - 3) ∧
      ∀ t ∈ p.tlvs, EntriesTLV t := by
  have hheader : (csnpHeaderLen : Int) = 33 := rfl
  have hempty : tlvsLen [] = 0 := rfl
  have hauth : (s.authLen level : Int) ≤ 69 := by exact_mod_cast authLen_le s level
  have hauthLen : (if (s.authKey level).on then
      (tlvLen (authTLVPlaceholder (s.authKey level)) : Int) else 0) = s.authLen level := by
    unfold authLen
    split <;> rfl
  unfold sendCSNP at hp
  obtain ⟨hle, hentries⟩ := fits_packCSNPs (by omega) (fun _ => length_chunkEntries)
    (fun _ ht => absurd ht not_mem_nil) rfl (by omega) hp
  exact ⟨by omega, hentries⟩

/-- **A burst of CSNPs**, on a circuit that takes 512 octets behind the LLC header. The ranges start
at `00…00`, each next one is the number after the end of the one before, and the last ends at
`ff…ff`. Every entry of the database is listed once, by the PDU whose range has its ID, with its
sequence number and its remaining lifetime, and nothing else is listed. Every PDU is sent, with its
Authentication TLV, in at most the receive buffer and the MTU, and decodes to its range and
entries. -/
theorem csnp_burst (s : IsisServer) (c : Circuit) (level : Level) (now : Int)
    (hmtu : 512 ≤ c.cfg.mtu - 3) :
    (s.sendCSNP c level now).head?.map (·.startLSP) = some firstLSPID ∧
    (s.sendCSNP c level now).getLast?.map (·.endLSP) = some lastLSPID ∧
    ((s.sendCSNP c level now).IsChain fun p q => lspNum q.startLSP = lspNum p.endLSP + 1) ∧
    (∀ id e, s.entryAt level id = some e →
      ∃ before p after, s.sendCSNP c level now = before ++ p :: after ∧
        inRange id p.startLSP p.endLSP = true ∧
        (listedEntries p.tlvs).filter (fun x => decide (x.lspID = id)) =
          [⟨e.remaining now, id, e.lsp.sequenceNumber, e.lsp.checksum⟩] ∧
        ∀ q ∈ before ++ after, ∀ x ∈ listedEntries q.tlvs, x.lspID ≠ id) ∧
    (∀ p ∈ s.sendCSNP c level now, ∀ x ∈ listedEntries p.tlvs,
      (s.entryAt level x.lspID).isSome = true) ∧
    ∀ p ∈ s.sendCSNP c level now, ∃ wire q, s.sendSNP level (.csnp p) = .ok wire ∧
      (wire.length : Int) ≤ min 1492 (c.cfg.mtu - 3) ∧ decodePDU wire = .ok (.csnp q) ∧
      q.startLSP = p.startLSP ∧ q.endLSP = p.endLSP ∧
      listedEntries q.tlvs = listedEntries p.tlvs := by
  obtain ⟨⟨p, hp, hstart⟩, ⟨r, hr, hend⟩, hchain⟩ := (tiles_sendCSNP s c level now).consecutive
  refine ⟨?_, ?_, hchain, fun id e h => listed_once h, fun p hp x hx => ?_, fun p hp => ?_⟩
  · rw [hp, Option.map_some, Option.some.injEq]
    exact lspNum_injective (hstart.trans lspNum_firstLSPID.symm)
  · rw [hr, Option.map_some, hend]
  · obtain ⟨e, he, -⟩ := (IsisServer.sendCSNP_listed hp).2 x hx
    rw [he]
    rfl
  · obtain ⟨hle, hentries⟩ := fits_sendCSNP hmtu hp
    have hshort : csnpHeaderLen + tlvsLen p.tlvs + s.authLen level ≤ 65535 := by omega
    obtain ⟨wire, q, hwire, hlen, hdecode, hfields, hlisted⟩ := sendSNP_csnp s hentries hshort
    simp only [Prod.mk.injEq] at hfields
    exact ⟨wire, q, hwire, by omega, hdecode, hfields.2.2.1, hfields.2.2.2, hlisted⟩

end Burst

/-- A circuit of the smallest MTU that is accepted. -/
def narrowCircuit : Circuit := newCircuit { ethernet "e0" true 10 with mtu := 515 } 1 1

/-- The LSP of one of forty systems. -/
def crowdID (n : ℕ) : LSPID := ⟨⟨octets6 0 0 0 0 1 (UInt8.ofNat n), 0⟩, 0⟩

/-- A server that signs with a key and holds the LSPs of forty systems. -/
def crowdedServer : IsisServer :=
  { fresh [1] with
    dbs := fun _ => some (Map.ofList ((range 40).map fun n =>
      (crowdID n, { keyedEntry with lsp := { keyedEntry.lsp with lspID := crowdID n } }))) }

/-- On a narrow circuit its burst takes two PDUs. -/
theorem csnp_burst_narrow :
    (512 : Int) ≤ narrowCircuit.cfg.mtu - 3 ∧
    (∃ p q, crowdedServer.sendCSNP narrowCircuit .level1 0 = [p, q] ∧
      p.startLSP = firstLSPID ∧ lspNum q.startLSP = lspNum p.endLSP + 1 ∧ q.endLSP = lastLSPID ∧
      (listedEntries p.tlvs).length + (listedEntries q.tlvs).length = 40) ∧
    ∀ p ∈ crowdedServer.sendCSNP narrowCircuit .level1 0, ∃ wire q,
      crowdedServer.sendSNP .level1 (.csnp p) = .ok wire ∧
      (wire.length : Int) ≤ 512 ∧ decodePDU wire = .ok (.csnp q) ∧
      listedEntries q.tlvs = listedEntries p.tlvs := by
  have hmtu : (512 : Int) ≤ narrowCircuit.cfg.mtu - 3 := by decide
  obtain ⟨hfirst, hlast, hchain, -, -, hsent⟩ :=
    csnp_burst crowdedServer narrowCircuit .level1 0 hmtu
  refine ⟨hmtu, ?_, fun p hp => ?_⟩
  · have hlisted : (crowdedServer.sendCSNP narrowCircuit .level1 0).map
        (fun p => (listedEntries p.tlvs).length) = [15, 25] := by decide +kernel
    obtain ⟨p, rest, heq, hp, hrest⟩ := map_eq_cons_iff.mp hlisted
    obtain ⟨q, hq, hql⟩ := map_eq_singleton_iff.mp hrest
    rw [heq, hq] at hfirst hlast hchain
    refine ⟨p, q, by rw [heq, hq], Option.some.inj hfirst, ?_,
      Option.some.inj hlast, by rw [hp, hql]⟩
    exact (isChain_cons_cons.mp hchain).1
  · obtain ⟨wire, q, hwire, hlen, hdecode, -, -, hsame⟩ := hsent p hp
    exact ⟨wire, q, hwire, hlen, hdecode, hsame⟩

end Goisis.Server
