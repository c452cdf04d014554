import Goisis.Lib.Codec
import Goisis.Packet.SubTLV

/-!
# Sub-TLVs round trip

For every sub-TLV and sub-sub-TLV type, the two directions of the codec:

* `…framesBack` / `…decodesBack` — a canonical value is read back from its own encoding;
* `…reencodes` — what a decoder accepts is canonical and encodes again, in no more octets.

A value is canonical (`Canonical`) in the sub-TLV context it stands in: an opaque sub-TLV must be
one the context's registry keeps opaque, with the `refused` mark the registry would give it, and a
SID's opaque sub-sub-TLVs may not hide a SID Structure the decoder would have taken.
-/

namespace Goisis.Packet

open Lib List SubTLV

variable {value b : Bytes} {α : Type} {enc : α → Except CodecError Bytes} {P : α → Prop}
  {g : AdminGroup} {β : Type} {refused : Bool} {dec : UInt8 → Bytes → α} {as : List α} {v : Bytes}
  {subs : List SubTLV}

variable {e sub : Bytes} {typ : UInt8} {ctx : SubTLVContext} {unknown : List UnknownSubTLV}
  {st : Option SIDStructure} {s : EndXSID}

/-! ## Frames -/

section Frames

variable {dec : UInt8 → Bytes → Except CodecError α}

/-- What `enc` writes for `a` is one frame whose type and value decode to `a`. -/
def FramesBack (dec : UInt8 → Bytes → Except CodecError α) (enc : α → Except CodecError Bytes)
    (a : α) : Prop :=
  ∀ e, enc a = .ok e → ∃ typ value, frame typ value = some e ∧ dec typ value = .ok a

/-- What a frame decodes to satisfies `P` and encodes again, in no more octets. -/
def FrameReencodes (dec : UInt8 → Bytes → Except CodecError α) (enc : α → Except CodecError Bytes)
    (P : α → Prop) : Prop :=
  ∀ typ value a, value.length ≤ 255 → dec typ value = .ok a →
    P a ∧ ∃ e, enc a = .ok e ∧ e.length ≤ value.length + 2

theorem FramesBack.readsBack {a : α} (h : FramesBack dec enc a) :
    ReadsBack (frameItem dec) enc a := by
  intro e he
  obtain ⟨typ, value, hframe, hdec⟩ := h e he
  refine ⟨?_, fun rest => ?_⟩
  · have hlen := length_frame hframe
    rintro rfl
    simp at hlen
  · simp only [frameItem, splitFrame_frame hframe rest, hdec]

theorem splitFrame_value_le {rest : Bytes} (h : splitFrame b = some (typ, value, rest)) :
    value.length ≤ 255 := by
  unfold splitFrame at h
  split at h
  · rename_i t len r
    split at h
    · cases h
    cases h
    have hlen : len.toNat < 256 := len.toNat_lt
    rw [length_take]
    omega
  · cases h

theorem FrameReencodes.reencodes (h : FrameReencodes dec enc P) :
    Reencodes (frameItem dec) enc P := by
  intro b a rest hitem
  unfold frameItem at hitem
  split at hitem
  · cases hitem
  rename_i typ value rest' hsplit
  split at hitem
  · cases hitem
  rename_i a' hdec
  cases hitem
  obtain ⟨hP, e, he, hlen⟩ := h typ value a (splitFrame_value_le hsplit) hdec
  have hb := splitFrame_length hsplit
  exact ⟨hP, e, he, by omega⟩

end Frames

theorem encodeSubTLV_eq_ok : encodeSubTLV typ value = .ok e ↔ frame typ value = some e := by
  unfold encodeSubTLV
  cases frame typ value <;> simp

theorem encodeSubTLV_of_le {n : Nat} (typ : UInt8) (h : value.length ≤ n) (hn : n ≤ 255) :
    ∃ e, encodeSubTLV typ value = .ok e ∧ e.length ≤ n + 2 :=
  ⟨_, encodeSubTLV_eq_ok.mpr (if_neg (by omega)), by simp; omega⟩

/-! ## Administrative groups and link attributes -/

theorem wordItem_readsBack (w : UInt32) : ReadsBack wordItem (fun w => .ok (be32 w)) w := by
  rintro e ⟨⟩
  refine ⟨by simp [be32], fun rest => ?_⟩
  simp only [be32, cons_append, nil_append, wordItem, u32_be32]

theorem wordItem_reencodes : Reencodes wordItem (fun w => .ok (be32 w)) (fun _ => True) := by
  intro b w rest h
  unfold wordItem at h
  split at h
  · cases h
    exact ⟨trivial, _, rfl, by simp [be32]; omega⟩
  · cases h

theorem length_words (ws : List UInt32) : (ws.flatMap be32).length = ws.length * 4 := by
  have htotal : writeAll (fun w => .ok (be32 w)) ws =
      (.ok (ws.flatMap be32) : Except CodecError _) :=
    writeAll_total be32 ws
  exact length_writeAll (by rintro a e ⟨⟩; rfl) htotal

/-- The decoder of the encoding the group uses. -/
def decodeAdminGroupAs (extended : Bool) (value : Bytes) : Except CodecError AdminGroup :=
  if extended then decodeExtendedAdminGroup value else decodeAdminGroup value

theorem AdminGroup.decodesBack (g : AdminGroup) (h : g.serialize = .ok e) :
    ∃ value, frame (if g.extended then subTLVExtendedAdminGroup else subTLVAdminGroup) value =
      some e ∧ decodeAdminGroupAs g.extended value = .ok g := by
  obtain ⟨extended, groups⟩ := g
  obtain ⟨hone, h⟩ := ite_error_eq_ok.mp h
  refine ⟨_, encodeSubTLV_eq_ok.mp h, ?_⟩
  cases extended with
  | true =>
    have hread := readAll_writeAll (fun w _ => wordItem_readsBack w)
      (writeAll_total be32 groups) (Nat.le_refl _)
    simp only [decodeAdminGroupAs, if_true, decodeExtendedAdminGroup, hread, ok_bind]
    rw [if_neg (by rw [length_words]; omega)]
  | false =>
    obtain ⟨w, rfl⟩ := length_eq_one_iff.mp (by simpa using hone : groups.length = 1)
    have hword : u32At (be32 w ++ []) 0 = w := u32_be32 w
    simp only [decodeAdminGroupAs, Bool.false_eq_true, if_false, decodeAdminGroup,
      flatMap_cons, flatMap_nil, hword]
    rw [if_neg (by simp [be32])]

theorem decodeAdminGroup_reencodes (h : decodeAdminGroup value = .ok g) :
    ∃ e, g.serialize = .ok e ∧ e.length ≤ value.length + 2 := by
  obtain ⟨hlen, ⟨⟩⟩ := ite_error_eq_ok.mp h
  exact ⟨_, rfl, by simp [be32]; omega⟩

theorem decodeExtendedAdminGroup_reencodes (hv : value.length ≤ 255)
    (h : decodeExtendedAdminGroup value = .ok g) :
    ∃ e, g.serialize = .ok e ∧ e.length ≤ value.length + 2 := by
  obtain ⟨-, h⟩ := ite_error_eq_ok.mp h
  obtain ⟨groups, hread, ⟨⟩⟩ := bind_eq_ok.mp h
  obtain ⟨-, e, he, hlen⟩ := readAll_reencodes wordItem_reencodes hread
  rw [writeAll_total] at he
  cases he
  exact encodeSubTLV_of_le _ hlen hv

theorem orRefused_cases (typ : UInt8) (value : Bytes) (unknown : UnknownSubTLV → β) (wrap : α → β)
    (r : Except CodecError α) :
    (∃ a, r = .ok a ∧ orRefused typ value unknown wrap r = wrap a) ∨
      orRefused typ value unknown wrap r = unknown ⟨typ, value, true⟩ := by
  cases r with
  | error e => exact .inr rfl
  | ok a => exact .inl ⟨a, rfl, rfl⟩

theorem ok_orRefused {unknown : UnknownSubTLV → β} (wrap : α → β) {r : Except CodecError α} {a : α}
    (h : r = .ok a) :
    (.ok (orRefused typ value unknown wrap r) : Except CodecError β) = .ok (wrap a) := by
  rw [h]
  rfl

/-- An opaque link attribute is one the registry keeps opaque. -/
def LinkAttr.Canonical : LinkAttr → Prop
  | .unknown u => decodeLinkAttr u.subTLVType u.value = .unknown u
  | .adminGroup _ => True

theorem LinkAttr.framesBack {a : LinkAttr} (h : a.Canonical) :
    FramesBack (fun typ value => .ok (decodeLinkAttr typ value)) LinkAttr.serialize a := by
  intro e he
  cases a with
  | unknown u => exact ⟨u.subTLVType, u.value, encodeSubTLV_eq_ok.mp he, congrArg _ h⟩
  | adminGroup g =>
    obtain ⟨value, hframe, hdec⟩ := g.decodesBack he
    refine ⟨_, value, hframe, congrArg _ ?_⟩
    cases hg : g.extended <;> rw [hg] at hdec <;>
      simp only [decodeAdminGroupAs, if_true, Bool.false_eq_true, if_false] at hdec <;>
      simp [decodeLinkAttr, subTLVAdminGroup, subTLVExtendedAdminGroup, hdec, orRefused]

theorem LinkAttr.reencodes :
    FrameReencodes (fun typ value => .ok (decodeLinkAttr typ value)) LinkAttr.serialize
      LinkAttr.Canonical := by
  intro typ value a hv h
  cases h
  have key : (∃ refused, decodeLinkAttr typ value = .unknown ⟨typ, value, refused⟩) ∨
      ∃ g, decodeLinkAttr typ value = .adminGroup g ∧
        ∃ e, g.serialize = .ok e ∧ e.length ≤ value.length + 2 := by
    unfold decodeLinkAttr
    split_ifs
    · rcases orRefused_cases typ value LinkAttr.unknown .adminGroup (decodeAdminGroup value) with
        ⟨g, hg, heq⟩ | heq
      · exact .inr ⟨g, heq, decodeAdminGroup_reencodes hg⟩
      · exact .inl ⟨_, heq⟩
    · rcases orRefused_cases typ value LinkAttr.unknown .adminGroup
        (decodeExtendedAdminGroup value) with ⟨g, hg, heq⟩ | heq
      · exact .inr ⟨g, heq, decodeExtendedAdminGroup_reencodes hv hg⟩
      · exact .inl ⟨_, heq⟩
    · exact .inl ⟨false, rfl⟩
  rcases key with ⟨refused, heq⟩ | ⟨g, heq, he⟩
  · rw [heq]
    exact ⟨heq, encodeSubTLV_of_le typ (Nat.le_refl _) hv⟩
  · rw [heq]
    exact ⟨trivial, he⟩

/-- A sub-TLV area whose decoder cannot fail reads back what was written into it. -/
theorem frames_writeAll (hback : ∀ a ∈ as, FramesBack (fun typ value => .ok (dec typ value)) enc a)
    (hw : writeAll enc as = .ok b) : frames dec b = .ok as :=
  readAll_writeAll (fun a ha => (hback a ha).readsBack) hw (Nat.le_refl _)

theorem frames_reencodes (hre : FrameReencodes (fun typ value => .ok (dec typ value)) enc P)
    (h : frames dec b = .ok as) :
    (∀ a ∈ as, P a) ∧ ∃ e, writeAll enc as = .ok e ∧ e.length ≤ b.length :=
  readAll_reencodes hre.reencodes h

/-! ## Application-specific link attributes -/

theorem asla_first_octet : ∀ n ≤ 8, ∀ legacy : Bool,
    let o := UInt8.ofNat n ||| if legacy then 0x80 else 0
    (o &&& 0x7f).toNat = n ∧ (o &&& 0x80 != 0) = legacy := by
  decide

theorem asla_second_octet : ∀ n ≤ 8, (UInt8.ofNat n &&& 0x7f).toNat = n := by
  decide

def ASLA.Canonical (a : ASLA) : Prop := ∀ attr ∈ a.subSubTLVs, attr.Canonical

theorem ASLA.decodesBack {a : ASLA} (hc : a.Canonical) (h : a.serialize = .ok e) :
    ∃ value, frame subTLVASLA value = some e ∧ decodeASLA value = .ok a := by
  obtain ⟨legacy, sabm, udabm, attrs⟩ := a
  obtain ⟨hmasks, h⟩ := ite_error_eq_ok.mp h
  obtain ⟨hs, hu⟩ : sabm.length ≤ 8 ∧ udabm.length ≤ 8 := by simpa using hmasks
  obtain ⟨area, harea, henc⟩ := bind_eq_ok.mp h
  refine ⟨_, encodeSubTLV_eq_ok.mp henc, ?_⟩
  obtain ⟨hlow, hhigh⟩ := asla_first_octet sabm.length hs legacy
  have hread := frames_writeAll (fun a ha => LinkAttr.framesBack (hc a ha)) harea
  simp only [decodeASLA, at8_cons_zero, at8_cons_succ, hlow, hhigh,
    asla_second_octet udabm.length hu, length_cons, length_append]
  rw [if_neg (by omega), if_neg (by omega), if_neg (by omega)]
  generalize (UInt8.ofNat sabm.length ||| if legacy = true then 0x80 else 0) = first
  generalize UInt8.ofNat udabm.length = second
  have hdrop : (first :: second :: (sabm ++ udabm ++ area)).drop (2 + sabm.length + udabm.length) =
      area := by
    have hlen : (first :: second :: (sabm ++ udabm)).length = 2 + sabm.length + udabm.length := by
      simp only [length_cons, length_append]
      omega
    exact drop_left' hlen
  have hsabm : slice (first :: second :: (sabm ++ udabm ++ area)) 2 (2 + sabm.length) = sabm := by
    simpa using slice_append [first, second] sabm (udabm ++ area) rfl rfl
  have hudabm : slice (first :: second :: (sabm ++ udabm ++ area)) (2 + sabm.length)
      (2 + sabm.length + udabm.length) = udabm := by
    simpa using slice_append (first :: second :: sabm) udabm area
      (by simp; omega : _ = 2 + sabm.length) rfl
  rw [hdrop, hread, ok_bind, hsabm, hudabm]

theorem decodeASLA_reencodes {a : ASLA} (hv : value.length ≤ 255) (h : decodeASLA value = .ok a) :
    a.Canonical ∧ ∃ e, a.serialize = .ok e ∧ e.length ≤ value.length + 2 := by
  obtain ⟨-, h⟩ := ite_error_eq_ok.mp h
  obtain ⟨hmasks, h⟩ := ite_error_eq_ok.mp h
  obtain ⟨hlen, h⟩ := ite_error_eq_ok.mp h
  obtain ⟨attrs, hread, ⟨⟩⟩ := bind_eq_ok.mp h
  obtain ⟨hc, area, harea, hle⟩ := frames_reencodes LinkAttr.reencodes hread
  rw [length_drop] at hle
  set sabmLen := (at8 value 0 &&& 0x7f).toNat
  set udabmLen := (at8 value 1 &&& 0x7f).toNat
  have hs : (slice value 2 (2 + sabmLen)).length = sabmLen := by
    rw [length_slice (by omega)]; omega
  have hu : (slice value (2 + sabmLen) (2 + sabmLen + udabmLen)).length = udabmLen := by
    rw [length_slice (by omega)]; omega
  refine ⟨hc, ?_⟩
  unfold ASLA.serialize
  rw [if_neg (by simp only [hs, hu]; exact hmasks), harea, ok_bind]
  apply encodeSubTLV_of_le _ _ hv
  simp only [length_cons, length_append, hs, hu]
  omega

/-! ## Flexible algorithm definitions -/

theorem FlexAlgoSubSub.framesBack (ss : FlexAlgoSubSub) :
    FramesBack (fun typ value => .ok (FlexAlgoSubSub.mk typ value)) FlexAlgoSubSub.serialize ss :=
  fun _ he => ⟨ss.subSubTLVType, ss.value, encodeSubTLV_eq_ok.mp he, rfl⟩

theorem FlexAlgoSubSub.reencodes :
    FrameReencodes (fun typ value => .ok (FlexAlgoSubSub.mk typ value)) FlexAlgoSubSub.serialize
      (fun _ => True) := by
  rintro typ value _ hv ⟨⟩
  exact ⟨trivial, encodeSubTLV_of_le typ (Nat.le_refl _) hv⟩

theorem FlexAlgoDefinition.decodesBack (d : FlexAlgoDefinition) (h : d.serialize = .ok e) :
    ∃ value, frame subTLVFlexAlgoDef value = some e ∧ decodeFlexAlgoDefinition value = .ok d := by
  obtain ⟨area, harea, henc⟩ := bind_eq_ok.mp h
  refine ⟨_, encodeSubTLV_eq_ok.mp henc, ?_⟩
  have hread := frames_writeAll (fun ss _ => FlexAlgoSubSub.framesBack ss) harea
  simp only [decodeFlexAlgoDefinition, cons_append, nil_append, length_cons,
    drop_succ_cons, drop_zero, hread, ok_bind]
  rfl

theorem decodeFlexAlgoDefinition_reencodes {d : FlexAlgoDefinition} (hv : value.length ≤ 255)
    (h : decodeFlexAlgoDefinition value = .ok d) :
    ∃ e, d.serialize = .ok e ∧ e.length ≤ value.length + 2 := by
  obtain ⟨hlen, h⟩ := ite_error_eq_ok.mp h
  obtain ⟨subs, hread, ⟨⟩⟩ := bind_eq_ok.mp h
  obtain ⟨-, area, harea, hle⟩ := frames_reencodes FlexAlgoSubSub.reencodes hread
  rw [length_drop] at hle
  simp only [FlexAlgoDefinition.serialize, harea, ok_bind]
  apply encodeSubTLV_of_le _ _ hv
  simp only [length_append, length_cons, length_nil]
  omega

/-! ## SID sub-sub-TLVs and End.X SIDs -/

/-- The items `encodeSIDSubSubTLVs` writes: the SID Structure first, then the opaque ones. -/
def sidItems (st : Option SIDStructure) (unknown : List UnknownSubTLV) : List (UInt8 × Bytes) :=
  (st.toList.map fun s =>
      (subSubTLVSIDStruct, [s.locatorBlock, s.locatorNode, s.function, s.argument])) ++
    unknown.map fun u => (u.subTLVType, u.value)

/-- The opaque sub-sub-TLVs of a SID carry no `refused` mark, and none of them is a SID Structure
the decoder would have taken. -/
def SIDCanonical (st : Option SIDStructure) (unknown : List UnknownSubTLV) : Prop :=
  ∀ u ∈ unknown, u.refused = false ∧
    (st = none → ¬(u.subTLVType = subSubTLVSIDStruct ∧ u.value.length = 4))

theorem encodeSIDSubSubTLVs_eq (st : Option SIDStructure) (unknown : List UnknownSubTLV) :
    encodeSIDSubSubTLVs st unknown =
      writeAll (fun p : UInt8 × Bytes => encodeSubTLV p.1 p.2) (sidItems st unknown) := by
  have hrest : writeAll (fun p : UInt8 × Bytes => encodeSubTLV p.1 p.2)
      (unknown.map fun u => (u.subTLVType, u.value)) = writeAll UnknownSubTLV.serialize unknown :=
    writeAll_map _ _
  unfold encodeSIDSubSubTLVs sidItems
  cases st with
  | none =>
    simp only [Option.toList_none, map_nil, nil_append, hrest]
    cases writeAll UnknownSubTLV.serialize unknown <;> rfl
  | some s =>
    simp only [Option.toList_some, map_cons, map_nil, cons_append, nil_append, writeAll, hrest]
    cases writeAll UnknownSubTLV.serialize unknown <;> rfl

theorem map_unrefused (h : ∀ u ∈ unknown, u.refused = false) :
    (unknown.map fun u => (u.subTLVType, u.value)).map (fun p => UnknownSubTLV.mk p.1 p.2 false) =
      unknown := by
  induction unknown with
  | nil => rfl
  | cons u us ih =>
    obtain ⟨hu, hus⟩ := forall_mem_cons.mp h
    obtain ⟨typ, value, refused⟩ := u
    cases hu
    rw [map_cons, map_cons, ih hus]

theorem sortSIDSubSubTLVs_sidItems (hc : SIDCanonical st unknown) :
    sortSIDSubSubTLVs (sidItems st unknown) = (st, unknown) := by
  cases st with
  | some s =>
    have hmap := map_unrefused fun u hu => (hc u hu).1
    exact Prod.ext rfl hmap
  | none =>
    simp only [sidItems, Option.toList_none, map_nil, nil_append]
    induction unknown with
    | nil => rfl
    | cons u us ih =>
      obtain ⟨⟨hu, hn⟩, hus⟩ := forall_mem_cons.mp hc
      rw [map_cons, sortSIDSubSubTLVs, if_neg (hn rfl), ih hus]
      simp only [← hu]

theorem sidItems_sort (items : List (UInt8 × Bytes)) :
    SIDCanonical (sortSIDSubSubTLVs items).1 (sortSIDSubSubTLVs items).2 ∧
      items.Perm (sidItems (sortSIDSubSubTLVs items).1 (sortSIDSubSubTLVs items).2) := by
  induction items with
  | nil => exact ⟨by simp [SIDCanonical, sortSIDSubSubTLVs], by simp [sidItems, sortSIDSubSubTLVs]⟩
  | cons p items ih =>
    obtain ⟨t, v⟩ := p
    unfold sortSIDSubSubTLVs
    split
    · rename_i hst
      obtain ⟨rfl, hlen⟩ := hst
      refine ⟨fun u hu => ?_, ?_⟩
      · obtain ⟨p, -, rfl⟩ := mem_map.mp hu
        exact ⟨rfl, fun h => by cases h⟩
      · obtain ⟨a, b, c, d, rfl⟩ : ∃ a b c d, v = [a, b, c, d] := by
          match v, hlen with
          | [a, b, c, d], _ => exact ⟨a, b, c, d, rfl⟩
        simp [sidItems, at8, Function.comp_def]
    · rename_i hst
      obtain ⟨hc, hperm⟩ := ih
      refine ⟨fun u hu => ?_, ?_⟩
      · rcases mem_cons.mp hu with rfl | hu
        · exact ⟨rfl, fun _ => hst⟩
        · exact hc u hu
      · apply (hperm.cons (t, v)).trans
        exact perm_middle.symm

theorem pair_framesBack (p : UInt8 × Bytes) :
    FramesBack (fun typ value => .ok (Prod.mk typ value)) (fun p => encodeSubTLV p.1 p.2) p :=
  fun _ he => ⟨p.1, p.2, encodeSubTLV_eq_ok.mp he, rfl⟩

theorem pair_reencodes :
    FrameReencodes (fun typ value => .ok (Prod.mk typ value))
      (fun p : UInt8 × Bytes => encodeSubTLV p.1 p.2) (fun _ => True) := by
  rintro typ value _ hv ⟨⟩
  exact ⟨trivial, encodeSubTLV_of_le typ (Nat.le_refl _) hv⟩

theorem decodeSIDSubSubTLVs_encode (hc : SIDCanonical st unknown)
    (h : encodeSIDSubSubTLVs st unknown = .ok sub) :
    decodeSIDSubSubTLVs sub = .ok (st, unknown) := by
  rw [encodeSIDSubSubTLVs_eq] at h
  have hread := frames_writeAll (fun p _ => pair_framesBack p) h
  rw [decodeSIDSubSubTLVs, hread, ok_bind, sortSIDSubSubTLVs_sidItems hc]

theorem decodeSIDSubSubTLVs_reencodes (h : decodeSIDSubSubTLVs sub = .ok (st, unknown)) :
    SIDCanonical st unknown ∧ ∃ e, encodeSIDSubSubTLVs st unknown = .ok e ∧
      e.length ≤ sub.length := by
  obtain ⟨items, hread, hsort⟩ := bind_eq_ok.mp h
  obtain ⟨hc, hperm⟩ := sidItems_sort items
  rw [Except.ok.inj hsort] at hc hperm
  obtain ⟨-, e, he, hle⟩ := frames_reencodes pair_reencodes hread
  obtain ⟨e', he', hlen⟩ := writeAll_perm hperm he
  exact ⟨hc, e', (encodeSIDSubSubTLVs_eq st unknown).trans he', by omega⟩

/-- An IPv6 address as it comes off the wire: without a zone. -/
def Addr.Wire6 (a : Addr) : Prop := a.is6 = true ∧ a.withoutZone = a

theorem Addr.Wire6.exists_v6 {a : Addr} (h : a.Wire6) : ∃ o, a = .v6 o := by
  obtain ⟨h6, hzone⟩ := h
  cases a with
  | zero => cases h6
  | v4 o => cases h6
  | v6 o => exact ⟨o, rfl⟩
  | v6Zone o zone => cases hzone

/-- The tail a SID encoding has in common: the SID, then its sub-sub-TLV area behind a length
octet. -/
theorem sid_layout (head : Bytes) {h : Nat} (hh : head.length = h) (o : Octets 16)
    (hsub : sub.length ≤ 255) (hv : v = head ++ (o.val ++ UInt8.ofNat sub.length :: sub)) :
    v.length = h + 17 + sub.length ∧ (at8 v (h + 16)).toNat = sub.length ∧
      slice v (h + 17) (h + 17 + sub.length) = sub ∧ Octets.ofList 16 (v.drop h) = o := by
  have hpre : (head ++ o.val).length = h + 16 := by rw [length_append, hh, o.property]
  have hv' : v = head ++ o.val ++ UInt8.ofNat sub.length :: (sub ++ []) := by
    rw [hv]; simp
  obtain ⟨hlen, hat, hslice, -⟩ := counted_area hpre hsub hv'
  refine ⟨hlen, hat, hslice, ?_⟩
  rw [hv, drop_left' hh, Octets.ofList_append]

def EndXSID.Canonical (s : EndXSID) : Prop :=
  s.sid.Wire6 ∧ SIDCanonical s.sidStructure s.unknown

theorem EndXSID.decodesBack (hc : s.Canonical) (h : s.body = .ok e) :
    decodeEndXSIDBody e = .ok s := by
  obtain ⟨flags, algorithm, weight, behavior, sid, st, unknown⟩ := s
  obtain ⟨h6, hsid⟩ := hc
  obtain ⟨o, rfl⟩ := h6.exists_v6
  obtain ⟨sub, hsub, hbody⟩ := bind_eq_ok.mp h
  obtain ⟨hfit, hbody⟩ := ite_error_eq_ok.mp hbody
  have hback := decodeSIDSubSubTLVs_encode hsid hsub
  obtain ⟨hlen, h21, hslice, ho⟩ := sid_layout ([flags, algorithm, weight] ++ be16 behavior)
    (h := 5) rfl o (by omega) (Except.ok.inj hbody).symm
  have hbeh : u16At e 3 = behavior := by
    rw [← Except.ok.inj hbody]
    exact u16_be16 behavior
  have hat : at8 e 0 = flags ∧ at8 e 1 = algorithm ∧ at8 e 2 = weight := by
    rw [← Except.ok.inj hbody]
    exact ⟨rfl, rfl, rfl⟩
  simp only [decodeEndXSIDBody, h21, hslice, hback, ok_bind, hbeh, hat, ho]
  rw [if_neg (by omega), if_neg (by omega)]

theorem decodeEndXSIDBody_reencodes (hv : v.length ≤ 255) (h : decodeEndXSIDBody v = .ok s) :
    s.Canonical ∧ ∃ e, s.body = .ok e ∧ e.length ≤ v.length := by
  obtain ⟨-, h⟩ := ite_error_eq_ok.mp h
  obtain ⟨hlen, h⟩ := ite_error_eq_ok.mp h
  obtain ⟨⟨st, unknown⟩, hread, ⟨⟩⟩ := bind_eq_ok.mp h
  obtain ⟨hc, sub, hsub, hle⟩ := decodeSIDSubSubTLVs_reencodes hread
  rw [length_slice (by omega)] at hle
  refine ⟨⟨⟨rfl, rfl⟩, hc⟩, ?_⟩
  simp only [EndXSID.body, hsub, ok_bind]
  rw [if_neg (by omega)]
  refine ⟨_, rfl, ?_⟩
  simp only [Addr.as16, be16, length_append, length_cons, length_nil, length_octets]
  omega

/-! ## Sub-TLVs -/

/-- A sub-TLV that the registry of `ctx` would give. -/
def SubTLV.Canonical (ctx : SubTLVContext) : SubTLV → Prop
  | .unknown u => decodeSubTLV ctx u.subTLVType u.value = .unknown u
  | .adminGroup _ => ctx = .isReachability
  | .asla a => ctx = .isReachability ∧ a.Canonical
  | .srAlgorithm _ => ctx = .routerCapability
  | .flexAlgoDef _ => ctx = .routerCapability
  | .srv6Capabilities _ _ => ctx = .routerCapability
  | .endXSID s => ctx = .isReachability ∧ s.Canonical
  | .lanEndXSID _ s => ctx = .isReachability ∧ s.Canonical

theorem decodeLANEndXSID_append {neighbor : SystemID} {body : Bytes}
    (h : decodeEndXSIDBody body = .ok s) :
    decodeLANEndXSID (neighbor.val ++ body) = .ok (.lanEndXSID neighbor s) := by
  have hn := neighbor.property
  simp only [decodeLANEndXSID, drop_octets neighbor body (Nat.le_refl 6), Nat.sub_self,
    drop_zero, h, ok_bind, systemIDAt, Octets.ofList_append]
  rw [if_neg (by rw [length_append]; omega)]

theorem SubTLV.framesBack {s : SubTLV} (hc : s.Canonical ctx) :
    FramesBack (fun typ value => .ok (decodeSubTLV ctx typ value)) serialize s := by
  intro e he
  cases s with
  | unknown u => exact ⟨u.subTLVType, u.value, encodeSubTLV_eq_ok.mp he, congrArg _ hc⟩
  | adminGroup g =>
    obtain rfl : ctx = .isReachability := hc
    obtain ⟨value, hframe, hdec⟩ := g.decodesBack he
    refine ⟨_, value, hframe, congrArg _ ?_⟩
    cases hg : g.extended <;> rw [hg] at hdec <;>
      simp only [decodeAdminGroupAs, if_true, Bool.false_eq_true, if_false] at hdec <;>
      simp [decodeSubTLV, subTLVASLA, subTLVAdminGroup, subTLVExtendedAdminGroup, hdec, orRefused]
  | asla a =>
    obtain ⟨rfl, hc⟩ := hc
    obtain ⟨value, hframe, hdec⟩ := ASLA.decodesBack hc he
    exact ⟨_, value, hframe, ok_orRefused _ hdec⟩
  | srAlgorithm algorithms =>
    obtain rfl : ctx = .routerCapability := hc
    exact ⟨_, algorithms, encodeSubTLV_eq_ok.mp he, rfl⟩
  | flexAlgoDef d =>
    obtain rfl : ctx = .routerCapability := hc
    obtain ⟨value, hframe, hdec⟩ := d.decodesBack he
    exact ⟨_, value, hframe, ok_orRefused _ hdec⟩
  | srv6Capabilities flags subs =>
    obtain rfl : ctx = .routerCapability := hc
    refine ⟨_, _, encodeSubTLV_eq_ok.mp he, ?_⟩
    have hflags : u16At (be16 flags ++ subs) 0 = flags := u16_be16 flags
    have hdec : decodeSRv6Capabilities (be16 flags ++ subs) =
        .ok (.srv6Capabilities flags subs) := by
      rw [decodeSRv6Capabilities, if_neg (by simp [be16]), hflags]
      rfl
    change Except.ok (orRefused subTLVSRv6Capabilities (be16 flags ++ subs) unknown id
      (decodeSRv6Capabilities (be16 flags ++ subs))) = _
    exact ok_orRefused id hdec
  | endXSID s =>
    obtain ⟨rfl, hc⟩ := hc
    obtain ⟨value, hbody, henc⟩ := bind_eq_ok.mp he
    exact ⟨_, value, encodeSubTLV_eq_ok.mp henc, ok_orRefused _ (s.decodesBack hc hbody)⟩
  | lanEndXSID neighbor s =>
    obtain ⟨rfl, hc⟩ := hc
    obtain ⟨value, hbody, henc⟩ := bind_eq_ok.mp he
    exact ⟨_, _, encodeSubTLV_eq_ok.mp henc,
      ok_orRefused id (decodeLANEndXSID_append (s.decodesBack hc hbody))⟩

/-- `s` is canonical and encodes in no more octets than the value it was read from. -/
def SubTLV.FitsBack (ctx : SubTLVContext) (value : Bytes) (s : SubTLV) : Prop :=
  s.Canonical ctx ∧ ∃ e, s.serialize = .ok e ∧ e.length ≤ value.length + 2

section FitsBack

variable {s : SubTLV} (hv : value.length ≤ 255) (hdec : decodeSubTLV ctx typ value = s)
include hv hdec

theorem SubTLV.fitsBack_unknown (h : .unknown ⟨typ, value, refused⟩ = s) :
    s.FitsBack ctx value := by
  cases h
  exact ⟨hdec, encodeSubTLV_of_le typ (Nat.le_refl _) hv⟩

/-- A registered decoder either gives a canonical sub-TLV or has its value kept opaque. -/
theorem SubTLV.fitsBack_orRefused {wrap : α → SubTLV} {r : Except CodecError α}
    (h : orRefused typ value .unknown wrap r = s)
    (hr : ∀ a, r = .ok a → (wrap a).FitsBack ctx value) : s.FitsBack ctx value := by
  rcases orRefused_cases typ value unknown wrap r with ⟨a, ha, heq⟩ | heq
  · rw [← h, heq]
    exact hr a ha
  · exact fitsBack_unknown hv hdec (heq.symm.trans h)

end FitsBack

theorem decodeLANEndXSID_fitsBack {s : SubTLV} (hv : value.length ≤ 255)
    (h : decodeLANEndXSID value = .ok s) : s.FitsBack .isReachability value := by
  obtain ⟨hlen, h⟩ := ite_error_eq_ok.mp h
  obtain ⟨x, hbody, ⟨⟩⟩ := bind_eq_ok.mp h
  obtain ⟨hc, e, he, hle⟩ := decodeEndXSIDBody_reencodes (by rw [length_drop]; omega) hbody
  rw [length_drop] at hle
  refine ⟨⟨rfl, hc⟩, ?_⟩
  simp only [serialize, he, ok_bind]
  apply encodeSubTLV_of_le _ _ hv
  rw [length_append, length_octets]
  omega

theorem decodeSRv6Capabilities_fitsBack {s : SubTLV} (hv : value.length ≤ 255)
    (h : decodeSRv6Capabilities value = .ok s) : s.FitsBack .routerCapability value := by
  obtain ⟨hlen, ⟨⟩⟩ := ite_error_eq_ok.mp h
  refine ⟨rfl, encodeSubTLV_of_le _ ?_ hv⟩
  simp only [be16, length_append, length_cons, length_nil, length_drop]
  omega

theorem SubTLV.reencodes (ctx : SubTLVContext) :
    FrameReencodes (fun typ value => .ok (decodeSubTLV ctx typ value)) serialize
      (SubTLV.Canonical ctx) := by
  intro typ value a hv h
  change a.FitsBack ctx value
  have hdec := Except.ok.inj h
  have h := hdec
  cases ctx with
  | isReachability =>
    simp only [decodeSubTLV] at h
    split_ifs at h
    · refine fitsBack_orRefused hv hdec h fun a ha => ?_
      obtain ⟨hc, he⟩ := decodeASLA_reencodes hv ha
      exact ⟨⟨rfl, hc⟩, he⟩
    · exact fitsBack_orRefused hv hdec h fun g hg => ⟨rfl, decodeAdminGroup_reencodes hg⟩
    · exact fitsBack_orRefused hv hdec h fun g hg => ⟨rfl, decodeExtendedAdminGroup_reencodes hv hg⟩
    · refine fitsBack_orRefused hv hdec h fun s hs => ?_
      obtain ⟨hc, e, he, hle⟩ := decodeEndXSIDBody_reencodes hv hs
      refine ⟨⟨rfl, hc⟩, ?_⟩
      simp only [serialize, he, ok_bind]
      exact encodeSubTLV_of_le _ hle hv
    · exact fitsBack_orRefused hv hdec h fun s hs => decodeLANEndXSID_fitsBack hv hs
    · exact fitsBack_unknown hv hdec h
  | routerCapability =>
    simp only [decodeSubTLV] at h
    split_ifs at h
    · cases h
      exact ⟨rfl, encodeSubTLV_of_le _ (Nat.le_refl _) hv⟩
    · exact fitsBack_orRefused hv hdec h fun d hd => ⟨rfl, decodeFlexAlgoDefinition_reencodes hv hd⟩
    · exact fitsBack_orRefused hv hdec h fun s hs => decodeSRv6Capabilities_fitsBack hv hs
    · exact fitsBack_unknown hv hdec h
  | ipReachability => exact fitsBack_unknown hv hdec h
  | asla => exact fitsBack_unknown hv hdec h

/-- **Sub-TLV areas read back**: a list of canonical sub-TLVs decodes to itself. -/
theorem decodeSubTLVs_serialize (hc : ∀ s ∈ subs, s.Canonical ctx)
    (h : serializeSubTLVs subs = .ok b) : decodeSubTLVs ctx b = .ok subs :=
  frames_writeAll (fun s hs => framesBack (hc s hs)) h

/-- **Sub-TLV areas encode again**, in no more octets than they were read from. -/
theorem decodeSubTLVs_reencodes (h : decodeSubTLVs ctx b = .ok subs) :
    (∀ s ∈ subs, s.Canonical ctx) ∧ ∃ e, serializeSubTLVs subs = .ok e ∧ e.length ≤ b.length :=
  frames_reencodes (reencodes ctx) h

end Goisis.Packet
