import Goisis.Lib.Map
import Goisis.Packet.PDU

/-!
# The link-state database

Model of `pkg/server/lsdb.go`: an LSDB entry, its ageing and its bytes on the wire, and the order
`newer` that the whole update process is built on.

Instants and durations are integers, in nanoseconds, so `int(d.Seconds())` is a division truncated
towards zero. The zero `time.Time` of `purgedAt` is `none`. `corruptLifetime` and the suppression
budget of RFC 7987 drive a metric only and are left out.

* `remaining_toNat` — from insertion on, the remaining lifetime in closed form;
* `newer_some_iff` — `newer` is the lexicographic order on (sequence number, purge above live);
* `at8_wire`, `headerAgrees_wire` — patching the remaining lifetime keeps every other octet.
-/

namespace Goisis.Server

open Lib Packet Function Option

variable {now : Int} {e : LspEntry} {seq : UInt32}

/-- `time.Second`, in nanoseconds. -/
def second : Int := 1000000000

/-- `maxAgeSeconds`: MaxAge. -/
def maxAgeSeconds : UInt16 := 1200

/-- `refreshSeconds`: maximumLSPGenerationInterval. -/
def refreshSeconds : Int := 900

/-- `zeroAgeSeconds`: ZeroAgeLifetime. -/
def zeroAgeSeconds : Int := 60

/-- `maxLSPSeq`. -/
def maxLSPSeq : UInt32 := 0xffffffff

/-- `seqWrapHold`. -/
def seqWrapHold : Int := (zeroAgeSeconds + 5) * second

/-- `receivedLifetime(remaining)`: a purge stays a purge, a short lifetime is raised to MaxAge. -/
def receivedLifetime (remaining : UInt16) : UInt16 :=
  if remaining = 0 then 0 else max remaining maxAgeSeconds

/-- `lspEntry`. -/
structure LspEntry where
  lsp : LSP
  raw : Bytes
  inserted : Int
  lifetime : UInt16
  own : Bool
  purgedAt : Option Int
  refreshAt : Int
deriving DecidableEq, Repr

/-- `remaining(now)`: the conversion to `uint16` wraps, which shows only before `inserted`. The
source's `int(Sub().Seconds())` goes through `float64`, which truncates as here below `2 ^ 24`
seconds. -/
def LspEntry.remaining (e : LspEntry) (now : Int) : UInt16 :=
  let elapsed := (now - e.inserted).tdiv second
  let rem := (e.lifetime.toNat : Int) - elapsed
  if rem < 0 then 0 else UInt16.ofNat rem.toNat

/-- `wire(now)`: the stored bytes with the remaining lifetime patched in. -/
def LspEntry.wire (e : LspEntry) (now : Int) : Bytes :=
  if 12 ≤ e.raw.length then putU16 e.raw 10 (e.remaining now) else e.raw

/-- A live copy: not purged and not expired (the test `buildTopology` makes on every entry). -/
def LspEntry.live (e : LspEntry) (now : Int) : Bool :=
  e.purgedAt.isNone && e.remaining now != 0

/-- `newer(candSeq, candRemaining, ex, now)`. -/
def newer (candSeq : UInt32) (candRemaining : UInt16) (ex : Option LspEntry) (now : Int) : Bool :=
  match ex with
  | none => true
  | some ex =>
    if candSeq ≠ ex.lsp.sequenceNumber then candSeq > ex.lsp.sequenceNumber
    else
      let candZero := candRemaining == 0
      let exZero := ex.remaining now == 0
      if candZero != exZero then candZero else false

/-- `lsdb`: the entries of one level. -/
abbrev LSDB := Map LSPID LspEntry

/-- `lspKey`. -/
abbrev LspKey := Level × LSPID

/-! ## Maps per level -/

/-- Changes the map of one level, if the level has one. -/
def onLevel {K V : Type} (m : Level → Option (Map K V)) (level : Level) (f : Map K V → Map K V) :
    Level → Option (Map K V) :=
  update m level ((m level).map f)

section OnLevel

variable {K V : Type} {m : Level → Option (Map K V)} {level level' : Level}

theorem onLevel_isSome {f : Map K V → Map K V} :
    (onLevel m level f level').isSome = (m level').isSome := by
  unfold onLevel
  by_cases h : level' = level
  · subst h
    rw [update_self]
    cases m level' <;> rfl
  · rw [update_of_ne h]

/-- A change at one level is no change in which levels have a map. -/
theorem onLevel_presence {f : Map K V → Map K V} :
    (fun l => (onLevel m level f l).map fun _ => (∅ : Map K V)) = fun l =>
      (m l).map fun _ => ∅ := by
  funext l
  unfold onLevel
  by_cases h : l = level
  · subst h
    rw [update_self, map_map]
    rfl
  · rw [update_of_ne h]

variable [DecidableEq K]

theorem lookup_onLevel_insert {k k' : K} {v : V} :
    (onLevel m level (·.insert k v) level').bind (·.lookup k') =
      if level' = level ∧ k' = k ∧ (m level).isSome then some v
      else (m level').bind (·.lookup k') := by
  unfold onLevel
  by_cases h : level' = level
  · subst h
    rw [update_self]
    cases hm : m level' with
    | none => simp
    | some a =>
      simp only [map_some, bind_some, Map.lookup_insert_ite, true_and, isSome_some, and_true]
  · rw [update_of_ne h, if_neg (fun hc => h hc.1)]

theorem lookup_onLevel_erase {k k' : K} :
    (onLevel m level (·.erase k) level').bind (·.lookup k') =
      if level' = level ∧ k' = k then none else (m level').bind (·.lookup k') := by
  unfold onLevel
  by_cases h : level' = level
  · subst h
    rw [update_self]
    cases hm : m level' with
    | none => simp
    | some a =>
      simp only [map_some, bind_some, Map.lookup_erase_ite, true_and]
  · rw [update_of_ne h, if_neg (fun hc => h hc.1)]

end OnLevel

/-! ## Ageing -/

/-- From insertion on, the remaining lifetime is the stored one less the elapsed seconds. -/
theorem LspEntry.remaining_toNat (h : e.inserted ≤ now) :
    ((e.remaining now).toNat : Int) = max 0 (e.lifetime.toNat - (now - e.inserted) / second) := by
  have hl := e.lifetime.toNat_lt
  have hdiv : (now - e.inserted).tdiv second = (now - e.inserted) / second :=
    Int.tdiv_eq_ediv_of_nonneg (by omega)
  have hnn : 0 ≤ (now - e.inserted) / second := Int.ediv_nonneg (by omega) (by decide)
  simp only [LspEntry.remaining, hdiv]
  split
  · rw [max_eq_left (by omega)]
    rfl
  · rw [max_eq_right (by omega), UInt16.toNat_ofNat']
    omega

/-- A copy stored with lifetime zero reads as a purge from its insertion on. -/
theorem LspEntry.remaining_eq_zero (h : e.inserted ≤ now) (hl : e.lifetime = 0) :
    e.remaining now = 0 := by
  have hr := LspEntry.remaining_toNat h
  have hnn : 0 ≤ (now - e.inserted) / second := Int.ediv_nonneg (by omega) (by decide)
  rw [hl] at hr
  simp only [UInt16.toNat_zero, Nat.cast_zero, zero_sub] at hr
  rw [max_eq_left (by omega)] at hr
  exact UInt16.toNat_inj.mp (by simpa using hr)

/-! ## The order on copies -/

/-- **The order `newer` implements**: the higher sequence number, and at equal sequence numbers a
purge over a live copy. -/
theorem newer_some_iff {rem : UInt16} {ex : LspEntry} :
    newer seq rem (some ex) now = true ↔
      ex.lsp.sequenceNumber < seq ∨
      (seq = ex.lsp.sequenceNumber ∧ rem = 0 ∧ ex.remaining now ≠ 0) := by
  unfold newer
  by_cases hs : seq = ex.lsp.sequenceNumber
  · subst hs
    by_cases hr : rem = 0 <;> by_cases hx : ex.remaining now = 0 <;> simp [hr, hx]
  · simp [hs]

theorem newer_some_eq_false {rem : UInt16} {ex : LspEntry}
    (h : newer seq rem (some ex) now = false) :
    seq < ex.lsp.sequenceNumber ∨
      (seq = ex.lsp.sequenceNumber ∧ (rem = 0 → ex.remaining now = 0)) := by
  have hn : ¬ newer seq rem (some ex) now = true := by rw [h]; simp
  rw [newer_some_iff] at hn
  by_cases hs : seq = ex.lsp.sequenceNumber
  · refine .inr ⟨hs, fun hr => ?_⟩
    by_cases hx : ex.remaining now = 0
    · exact hx
    · exact absurd (.inr ⟨hs, hr, hx⟩) hn
  · left
    have hle : ¬ ex.lsp.sequenceNumber < seq := fun hlt => hn (.inl hlt)
    rw [UInt32.lt_iff_toNat_lt] at hle ⊢
    have hne : seq.toNat ≠ ex.lsp.sequenceNumber.toNat := fun h => hs (UInt32.toNat_inj.mp h)
    omega

/-! ## Sequence numbers -/

/-- Below the highest sequence number, adding one does not wrap. -/
theorem toNat_succ_of_ne_max (h : seq ≠ maxLSPSeq) : (seq + 1).toNat = seq.toNat + 1 := by
  have hlt := seq.toNat_lt
  have hne : seq.toNat ≠ 4294967295 := fun heq => h (UInt32.toNat_inj.mp heq)
  rw [UInt32.toNat_add, UInt32.toNat_one]
  omega

theorem lt_succ_of_ne_max (h : seq ≠ maxLSPSeq) : seq < seq + 1 := by
  rw [UInt32.lt_iff_toNat_lt, toNat_succ_of_ne_max h]
  omega

theorem one_le_succ_of_ne_max (h : seq ≠ maxLSPSeq) : 1 ≤ seq + 1 := by
  rw [UInt32.le_iff_toNat_le, toNat_succ_of_ne_max h, UInt32.toNat_one]
  omega

theorem lt_maxLSPSeq_or_eq (seq : UInt32) : seq < maxLSPSeq ∨ seq = maxLSPSeq := by
  have hlt := seq.toNat_lt
  have hmax : maxLSPSeq.toNat = 4294967295 := rfl
  by_cases h : seq = maxLSPSeq
  · exact .inr h
  left
  have hne : seq.toNat ≠ maxLSPSeq.toNat := fun heq => h (UInt32.toNat_inj.mp heq)
  rw [UInt32.lt_iff_toNat_lt]
  omega

/-! ## The bytes on the wire -/

/-- Patching the remaining lifetime changes octets 10 and 11 only. -/
theorem LspEntry.at8_wire {j : Nat} (h10 : j ≠ 10) (h11 : j ≠ 11) :
    at8 (e.wire now) j = at8 e.raw j := by
  unfold LspEntry.wire
  split
  · exact at8_putU16_ne h10 h11
  · rfl

theorem LspEntry.length_wire (e : LspEntry) (now : Int) : (e.wire now).length = e.raw.length := by
  unfold LspEntry.wire
  split
  · rw [length_putU16]
  · rfl

theorem LspEntry.u16At_wire_remaining (h : 12 ≤ e.raw.length) :
    u16At (e.wire now) 10 = e.remaining now := by
  unfold LspEntry.wire
  rw [if_pos h]
  exact u16At_putU16_self (by omega)

theorem LspEntry.u16At_wire_checksum (e : LspEntry) (now : Int) :
    u16At (e.wire now) 24 = u16At e.raw 24 :=
  u16At_congr fun _ _ => LspEntry.at8_wire (by omega) (by omega)

theorem LspEntry.drop_wire (e : LspEntry) (now : Int) : (e.wire now).drop 12 = e.raw.drop 12 := by
  unfold LspEntry.wire
  split
  · simp [putU16, List.drop_set]
  · rfl

/-- The Fletcher checksum does not cover the remaining lifetime. -/
theorem LspEntry.lspChecksumValidRaw_wire (e : LspEntry) (now : Int) :
    lspChecksumValidRaw (e.wire now) = lspChecksumValidRaw e.raw := by
  unfold lspChecksumValidRaw
  rw [LspEntry.length_wire, LspEntry.drop_wire]

/-- The flooded bytes carry the header fields of the stored ones. -/
theorem LspEntry.headerAgrees_wire {p : LSP} (h : p.HeaderAgrees e.raw) :
    p.HeaderAgrees (e.wire now) :=
  h.congr (by rw [LspEntry.length_wire]) (LspEntry.at8_wire (by decide) (by decide))
    fun _ _ _ => LspEntry.at8_wire (by omega) (by omega)

end Goisis.Server
