import Goisis.Packet.PDUCodec
import Goisis.Server.Run
import Goisis.Server.Snp

/-!
# Transit: from a received frame to the bytes flooded on

Model of `handleRx` of `pkg/server/hello.go`: the frame is trimmed to its declared length, decoded,
authenticated, admitted by the adjacency gate and handed to the update process.

A foreign LSP is stored as it was received. What this node floods later is `wire(now)`, the stored
bytes with the remaining lifetime patched in.

* `handleRx_installs` — a new live foreign entry under the LSP's ID is the received LSP, with a
  checksum that verifies;
* `transit_fidelity` — for as long as the entry stays and lives, the flooded bytes are the received
  PDU but for the lifetime: they verify, authenticate and decode as the received PDU did.
-/

namespace Goisis.Server

open Lib Packet IsisServer

/-! ## Receiving a frame -/

/-- `datalink.Frame`: the source address and the PDU with whatever padding the link added. -/
structure Frame where
  src : SNPA
  pdu : Bytes

namespace IsisServer

/-- `handleRx(c, frame)`. `linkDown` is the circuit's flag; the two hello arms are `hello`, the
adjacency state machine behind its authentication. -/
def handleRx (s : IsisServer) (hello : IsisServer → Bytes → PDU → IsisServer) (linkDown : Bool)
    (cn : String) (frame : Frame) (now jitter : Int) : IsisServer :=
  match s.circuitNamed cn with
  | none => s
  | some c =>
    if linkDown then s
    else
      let raw := trimToPDULength frame.pdu
      match decodePDU raw with
      | .error _ => s
      | .ok (.lanHello h) => hello s raw (.lanHello h)
      | .ok (.p2pHello h) => hello s raw (.p2pHello h)
      | .ok (.lsp h) =>
        if s.pduAuthOK raw h.pduType h.level true ∧
          (c.upAdjacencyFrom h.level frame.src).isSome then
          s.processLSP cn raw h now jitter
        else s
      | .ok (.csnp h) =>
        if s.pduAuthOK raw h.pduType h.level false ∧
          (c.upAdjacencyFrom h.level frame.src).isSome then
          s.processCSNP cn h now
        else s
      | .ok (.psnp h) =>
        if s.pduAuthOK raw h.pduType h.level false ∧
          (c.upAdjacencyFrom h.level frame.src).isSome then
          s.processPSNP cn h now
        else s

end IsisServer

/-! ## What is installed -/

section Install

variable {s : IsisServer} {cn : String} {lsp : LSP} {e : LspEntry} {now jitter : Int}

/-- A new live entry that is not ours can only come from the install path of `processLSP`. -/
theorem receive_installs {raw : Bytes} (hdecode : decodePDU raw = .ok (.lsp lsp))
    (hentry : (s.receive cn raw now jitter).entryAt lsp.level lsp.lspID = some e)
    (hnew : s.entryAt lsp.level lsp.lspID ≠ some e) (hown : e.own = false)
    (hlive : e.purgedAt = none) :
    e = receivedEntry raw lsp now ∧ lspChecksumValidRaw raw = true := by
  have hout := exec_outcome (.receive cn raw jitter) s now
  simp only [Op.exec] at hout
  generalize s.receive cn raw now jitter = s' at hout hentry
  cases hout with
  | unchanged | flagged | released => exact absurd hentry hnew
  | environment env hop => cases hop
  | signed level id _ _ h =>
    -- what this node serializes is its own or a purge
    rcases h.entryAt lsp.level lsp.lspID with heq | ⟨-, -, e', he', hsigned⟩
    · exact absurd (heq ▸ hentry) hnew
    · rw [hentry] at he'
      cases he'
      cases hsigned <;> simp [ownLive, ownPurge] at hown hlive
  | dropped level id =>
    rw [entryAt_markDirty, entryAt_deleteEntry] at hentry
    split at hentry
    · cases hentry
    · exact absurd hentry hnew
  | installed _ _ _ lsp' c hop hdecode' _ hvalid =>
    cases hop
    rw [hdecode] at hdecode'
    cases hdecode'
    rw [installLSP_entryAt] at hentry
    split at hentry
    · cases hentry
      have hrem : lsp.remainingTime ≠ 0 := by
        intro h0
        simp [receivedEntry, h0] at hlive
      exact ⟨rfl, hvalid hrem⟩
    · exact absurd hentry hnew

/-- **What `handleRx` installs** under a foreign LSP's ID is the trimmed PDU, decoded, with a
checksum that verifies. -/
theorem handleRx_installs {hello : IsisServer → Bytes → PDU → IsisServer} {linkDown : Bool}
    {frame : Frame} (hdecode : decodePDU (trimToPDULength frame.pdu) = .ok (.lsp lsp))
    (hentry : (s.handleRx hello linkDown cn frame now jitter).entryAt lsp.level lsp.lspID = some e)
    (hnew : s.entryAt lsp.level lsp.lspID ≠ some e) (hown : e.own = false)
    (hlive : e.purgedAt = none) :
    e = receivedEntry (trimToPDULength frame.pdu) lsp now ∧
      lspChecksumValidRaw (trimToPDULength frame.pdu) = true := by
  unfold IsisServer.handleRx at hentry
  split at hentry
  · exact absurd hentry hnew
  simp only [hdecode] at hentry
  split at hentry
  · exact absurd hentry hnew
  split at hentry
  · have hreceive : (s.receive cn (trimToPDULength frame.pdu) now jitter).entryAt lsp.level
        lsp.lspID = some e := by
      simp only [receive, hdecode]
      exact hentry
    exact receive_installs hdecode hreceive hnew hown hlive
  · exact absurd hentry hnew

end Install

/-! ## What is flooded on -/

/-- The bytes of the entry are the received PDU with its remaining lifetime aged. -/
structure FloodsAsReceived (raw : Bytes) (e : LspEntry) (now : Int) : Prop where
  /-- Nothing is added or cut. -/
  length : (e.wire now).length = raw.length
  /-- Only the remaining lifetime differs. -/
  octets : ∀ j, j ≠ 10 → j ≠ 11 → (e.wire now)[j]? = raw[j]?
  /-- The Fletcher checksum still verifies. -/
  checksum : lspChecksumValidRaw (e.wire now) = true
  /-- Every key of every algorithm gives the verdict it gave on the received PDU. -/
  auth : ∀ hmac algo keyID key, verifyAuth hmac (e.wire now) lspHeaderLen algo keyID key true =
    verifyAuth hmac raw lspHeaderLen algo keyID key true
  /-- A neighbour reads the stored LSP, with the lifetime it has left. -/
  decoded : decodePDU (e.wire now) = .ok (.lsp { e.lsp with remainingTime := e.remaining now })
  /-- The lifetime has not run out, and never exceeds what was received or MaxAge. -/
  lifetime : 1 ≤ e.remaining now ∧ e.remaining now ≤ max (u16At raw 10) maxAgeSeconds

theorem receivedEntry_floodsAsReceived {raw : Bytes} {lsp : LSP} {t now : Int}
    (hdecode : decodePDU raw = .ok (.lsp lsp)) (hvalid : lspChecksumValidRaw raw = true)
    (hle : t ≤ now) (hlive : (receivedEntry raw lsp t).remaining now ≠ 0) :
    FloodsAsReceived raw (receivedEntry raw lsp t) now := by
  obtain ⟨e, he⟩ : ∃ e, e = receivedEntry raw lsp t := ⟨_, rfl⟩
  obtain ⟨hagrees, -, hrem⟩ := decodePDU_lsp_fields hdecode
  have hraw : e.raw = raw := by rw [he]; rfl
  have hlen : 27 ≤ raw.length := hagrees.length
  have hwire : e.wire now = putU16 raw 10 (e.remaining now) := by
    unfold LspEntry.wire
    rw [hraw, if_pos (by omega)]
  have hinserted : e.inserted ≤ now := by rw [he]; exact hle
  have haged := LspEntry.remaining_toNat hinserted
  have hnn : 0 ≤ (now - e.inserted) / second :=
    Int.ediv_nonneg (Int.sub_nonneg.mpr hinserted) (by decide)
  rw [← he] at hlive ⊢
  refine ⟨?_, ?_, ?_, ?_, ?_, ?_, ?_⟩
  · rw [hwire, length_putU16]
  · intro j h10 h11
    rw [hwire, putU16, List.getElem?_set_ne (by omega), List.getElem?_set_ne (by omega)]
  · rw [LspEntry.lspChecksumValidRaw_wire, hraw]
    exact hvalid
  · intro hmac algo keyID key
    rw [hwire]
    exact verifyAuth_putU16 hagrees.length algo keyID key _
  · rw [hwire, decodePDU_putU16 hdecode, he]
    rfl
  · rw [UInt16.le_iff_toNat_le]
    have hne : (e.remaining now).toNat ≠ 0 := fun h => hlive (UInt16.toNat_inj.mp h)
    have hone : (1 : UInt16).toNat = 1 := rfl
    omega
  · have hlife : e.lifetime ≤ max lsp.remainingTime maxAgeSeconds := by
      rw [he]
      change receivedLifetime lsp.remainingTime ≤ _
      unfold receivedLifetime
      split
      · exact UInt16.zero_le
      · exact UInt16.le_refl _
    rw [hrem]
    refine UInt16.le_trans ?_ hlife
    rw [UInt16.le_iff_toNat_le]
    omega

/-- **Transit fidelity**: a foreign live LSP that `handleRx` installed is flooded as it was
received, at every later instant at which the entry still lives. -/
theorem transit_fidelity {s : IsisServer} {hello : IsisServer → Bytes → PDU → IsisServer}
    {linkDown : Bool} {cn : String} {frame : Frame} {t jitter now : Int} {lsp : LSP} {e : LspEntry}
    (hdecode : decodePDU (trimToPDULength frame.pdu) = .ok (.lsp lsp))
    (hentry : (s.handleRx hello linkDown cn frame t jitter).entryAt lsp.level lsp.lspID = some e)
    (hnew : s.entryAt lsp.level lsp.lspID ≠ some e) (hforeign : e.own = false) (hle : t ≤ now)
    (hlive : e.live now = true) :
    e.lsp = lsp ∧ FloodsAsReceived (trimToPDULength frame.pdu) e now := by
  simp only [LspEntry.live, Bool.and_eq_true, Option.isNone_iff_eq_none, bne_iff_ne] at hlive
  obtain ⟨rfl, hvalid⟩ := handleRx_installs hdecode hentry hnew hforeign hlive.1
  exact ⟨rfl, receivedEntry_floodsAsReceived hdecode hvalid hle hlive.2⟩

/-- A server with the originator of `plainEntry` up on its one circuit. -/
def transitServer : IsisServer :=
  { fresh [] with
    systemID := octets6 0 0 0 0 0 2
    circuits := (fresh []).circuits.map fun c => { c with
      p2pAdj := some { systemID := octets6 0 0 0 0 0 1, snpa := octets6 2 0 0 0 0 1, state := .up,
                       levels := ⟨true, false⟩ } } }

/-- The LSP of `plainEntry` on the wire, padded by the link. -/
def paddedFrame : Frame := ⟨octets6 2 0 0 0 0 1, plainEntry.raw ++ [0, 0, 0]⟩

/-- The LSP of `plainEntry` as it is stored on receipt. -/
def transitEntry : LspEntry := receivedEntry plainEntry.raw plainEntry.lsp 0

/-- A padded frame, and the LSP flooded on 100 seconds later. -/
theorem transit_fidelity_padded :
    transitEntry.lsp = plainEntry.lsp ∧
      FloodsAsReceived (trimToPDULength paddedFrame.pdu) transitEntry (100 * second) := by
  have hentry :
      (transitServer.handleRx (fun s _ _ => s) false "eth0" paddedFrame 0 0).entryAt .level1
      firstID = some transitEntry := by decide
  exact transit_fidelity (show decodePDU (trimToPDULength paddedFrame.pdu) =
    .ok (.lsp plainEntry.lsp)
    by decide) hentry (by decide) rfl (by decide) (by decide)

end Goisis.Server
