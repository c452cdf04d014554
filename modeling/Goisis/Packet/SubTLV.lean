import Goisis.Packet.Basic

/-!
# Sub-TLVs

Model of `pkg/packet/subtlv.go` and of the sub-TLV decoders registered in its contexts
(`tlv_asla.go`, `tlv_flexalgo.go`, `tlv_srv6_endx.go`, and the SRv6 capabilities of
`tlv_router_capability.go`).

The same code point decodes differently per context (`SubTLVContext`). A decoder that refuses its
value does not fail the area: the sub-TLV is kept opaque with `refused` set. The attributes inside
an ASLA are decoded against their own registry, which knows the two administrative groups only, so
they have their own type `LinkAttr`.
-/

namespace Goisis.Packet

open Lib

/-! ## Values -/

/-- The sub-TLV registries, one per family of parent TLVs. -/
inductive SubTLVContext where
  | isReachability
  | ipReachability
  | routerCapability
  | asla
deriving DecidableEq, Repr

/-- A sub-TLV kept opaque; `refused` when a registered decoder rejected its value. -/
structure UnknownSubTLV where
  subTLVType : UInt8
  value : Bytes
  refused : Bool := false
deriving DecidableEq, Repr

/-- `AdminGroupSubTLV`: a link's colours, in the plain (code 3) or extended (code 14) encoding. -/
structure AdminGroup where
  extended : Bool
  groups : List UInt32
deriving DecidableEq, Repr

/-- A link attribute inside an ASLA (`SubTLVContextASLA`). -/
inductive LinkAttr where
  | unknown (u : UnknownSubTLV)
  | adminGroup (g : AdminGroup)
deriving DecidableEq, Repr

/-- `ASLASubTLV`: link attributes scoped to the applications of two bit masks. -/
structure ASLA where
  legacy : Bool
  sabm : Bytes
  udabm : Bytes
  subSubTLVs : List LinkAttr
deriving DecidableEq, Repr

/-- `FlexAlgoSubSubTLV`. -/
structure FlexAlgoSubSub where
  subSubTLVType : UInt8
  value : Bytes
deriving DecidableEq, Repr

/-- `FlexAlgoDefinitionSubTLV`. -/
structure FlexAlgoDefinition where
  flexAlgo : UInt8
  metricType : UInt8
  calcType : UInt8
  priority : UInt8
  subSubTLVs : List FlexAlgoSubSub
deriving DecidableEq, Repr

/-- `SIDStructure`. -/
structure SIDStructure where
  locatorBlock : UInt8
  locatorNode : UInt8
  function : UInt8
  argument : UInt8
deriving DecidableEq, Repr

/-- `SRv6EndXSIDSubTLV`. -/
structure EndXSID where
  flags : UInt8
  algorithm : UInt8
  weight : UInt8
  behavior : UInt16
  sid : Addr
  sidStructure : Option SIDStructure
  unknown : List UnknownSubTLV
deriving DecidableEq, Repr

/-- A decoded sub-TLV. -/
inductive SubTLV where
  | unknown (u : UnknownSubTLV)
  | adminGroup (g : AdminGroup)
  | asla (a : ASLA)
  | srAlgorithm (algorithms : List UInt8)
  | flexAlgoDef (d : FlexAlgoDefinition)
  | srv6Capabilities (flags : UInt16) (subSubTLVs : Bytes)
  | endXSID (s : EndXSID)
  | lanEndXSID (neighbor : SystemID) (s : EndXSID)
deriving DecidableEq, Repr

/-! ## Code points -/

def subTLVAdminGroup : UInt8 := 3
def subTLVExtendedAdminGroup : UInt8 := 14
def subTLVASLA : UInt8 := 16
def subTLVSRAlgorithm : UInt8 := 19
def subTLVSRv6Capabilities : UInt8 := 25
def subTLVFlexAlgoDef : UInt8 := 26
def subTLVSRv6EndXSID : UInt8 := 43
def subTLVSRv6LANEndXSID : UInt8 := 44
def subSubTLVSIDStruct : UInt8 := 1

/-! ## Encoding -/

/-- `encodeSubTLV(t, value)`. -/
def encodeSubTLV (t : UInt8) (value : Bytes) : Except CodecError Bytes :=
  match frame t value with
  | none => .error .tooLong
  | some b => .ok b

/-- `(*UnknownSubTLV).Serialize`. -/
def UnknownSubTLV.serialize (u : UnknownSubTLV) : Except CodecError Bytes :=
  encodeSubTLV u.subTLVType u.value

/-- `(*AdminGroupSubTLV).Serialize`: the plain encoding is exactly one word. -/
def AdminGroup.serialize (g : AdminGroup) : Except CodecError Bytes :=
  if !g.extended ∧ g.groups.length ≠ 1 then .error .badTLV
  else encodeSubTLV (if g.extended then subTLVExtendedAdminGroup else subTLVAdminGroup)
    (g.groups.flatMap be32)

def LinkAttr.serialize : LinkAttr → Except CodecError Bytes
  | .unknown u => u.serialize
  | .adminGroup g => g.serialize

/-- `(*ASLASubTLV).Serialize`. -/
def ASLA.serialize (a : ASLA) : Except CodecError Bytes :=
  if a.sabm.length > 8 ∨ a.udabm.length > 8 then .error .tooLong
  else do
    let attrs ← writeAll LinkAttr.serialize a.subSubTLVs
    let first := UInt8.ofNat a.sabm.length ||| (if a.legacy then 0x80 else 0)
    encodeSubTLV subTLVASLA (first :: UInt8.ofNat a.udabm.length :: (a.sabm ++ a.udabm ++ attrs))

def FlexAlgoSubSub.serialize (ss : FlexAlgoSubSub) : Except CodecError Bytes :=
  encodeSubTLV ss.subSubTLVType ss.value

/-- `(*FlexAlgoDefinitionSubTLV).Serialize`. -/
def FlexAlgoDefinition.serialize (f : FlexAlgoDefinition) : Except CodecError Bytes := do
  let subs ← writeAll FlexAlgoSubSub.serialize f.subSubTLVs
  encodeSubTLV subTLVFlexAlgoDef ([f.flexAlgo, f.metricType, f.calcType, f.priority] ++ subs)

/-- `encodeSIDSubSubTLVs(st, unknown)`. -/
def encodeSIDSubSubTLVs (st : Option SIDStructure) (unknown : List UnknownSubTLV) :
    Except CodecError Bytes := do
  let head : Bytes := match st with
    | none => []
    | some s =>
      [subSubTLVSIDStruct, 4, s.locatorBlock, s.locatorNode, s.function, s.argument]
  let rest ← writeAll UnknownSubTLV.serialize unknown
  .ok (head ++ rest)

/-- `(*SRv6EndXSIDSubTLV).body`. -/
def EndXSID.body (s : EndXSID) : Except CodecError Bytes := do
  let sub ← encodeSIDSubSubTLVs s.sidStructure s.unknown
  if sub.length > 255 - 22 then .error .tooLong
  else .ok ([s.flags, s.algorithm, s.weight] ++ be16 s.behavior ++ s.sid.as16 ++
    UInt8.ofNat sub.length :: sub)

/-- `SubTLV.Serialize`. -/
def SubTLV.serialize : SubTLV → Except CodecError Bytes
  | .unknown u => u.serialize
  | .adminGroup g => g.serialize
  | .asla a => a.serialize
  | .srAlgorithm algorithms => encodeSubTLV subTLVSRAlgorithm algorithms
  | .flexAlgoDef d => d.serialize
  | .srv6Capabilities flags subs => encodeSubTLV subTLVSRv6Capabilities (be16 flags ++ subs)
  | .endXSID s => do encodeSubTLV subTLVSRv6EndXSID (← s.body)
  | .lanEndXSID neighbor s => do encodeSubTLV subTLVSRv6LANEndXSID (neighbor.val ++ (← s.body))

/-- `serializeSubTLVs(subs)`. -/
def serializeSubTLVs (subs : List SubTLV) : Except CodecError Bytes :=
  writeAll SubTLV.serialize subs

/-! ## Decoding -/

/-- One type-length-value item, decoded by `dec` from its type and value. -/
def frameItem {α : Type} (dec : UInt8 → Bytes → Except CodecError α) (b : Bytes) :
    Except CodecError (α × Bytes) :=
  match splitFrame b with
  | none => .error .truncated
  | some (typ, value, rest) =>
    match dec typ value with
    | .error e => .error e
    | .ok a => .ok (a, rest)

/-- A sub-TLV area: every item through `dec`, which cannot fail. -/
def frames {α : Type} (dec : UInt8 → Bytes → α) (b : Bytes) : Except CodecError (List α) :=
  readAll (frameItem fun typ value => .ok (dec typ value)) b.length b

/-- One 4-octet word; only reached on a multiple of four octets. -/
def wordItem : Bytes → Except CodecError (UInt32 × Bytes)
  | a :: b :: c :: d :: rest => .ok (u32 a b c d, rest)
  | _ => .error .truncated

/-- `decodeAdminGroup(value)`. -/
def decodeAdminGroup (value : Bytes) : Except CodecError AdminGroup :=
  if value.length ≠ 4 then .error .badTLV else .ok ⟨false, [u32At value 0]⟩

/-- `decodeExtendedAdminGroup(value)`. -/
def decodeExtendedAdminGroup (value : Bytes) : Except CodecError AdminGroup :=
  if value.length % 4 ≠ 0 then .error .badTLV
  else do
    let groups ← readAll wordItem value.length value
    .ok ⟨true, groups⟩

/-- The opaque fallback of `decodeSubTLV`: what the decoder refuses is preserved. -/
def orRefused {α β : Type} (typ : UInt8) (value : Bytes) (unknown : UnknownSubTLV → β)
    (wrap : α → β) : Except CodecError α → β
  | .ok a => wrap a
  | .error _ => unknown ⟨typ, value, true⟩

/-- `decodeSubTLV(SubTLVContextASLA, typ, value)`. -/
def decodeLinkAttr (typ : UInt8) (value : Bytes) : LinkAttr :=
  if typ = subTLVAdminGroup then
    orRefused typ value .unknown .adminGroup (decodeAdminGroup value)
  else if typ = subTLVExtendedAdminGroup then
    orRefused typ value .unknown .adminGroup (decodeExtendedAdminGroup value)
  else .unknown ⟨typ, value, false⟩

/-- `decodeASLA(value)`. -/
def decodeASLA (value : Bytes) : Except CodecError ASLA :=
  if value.length < 2 then .error .truncated
  else
    let sabmLen := (at8 value 0 &&& 0x7f).toNat
    let udabmLen := (at8 value 1 &&& 0x7f).toNat
    if sabmLen > 8 ∨ udabmLen > 8 then .error .tooLong
    else if value.length < 2 + sabmLen + udabmLen then .error .truncated
    else do
      let attrs ← frames decodeLinkAttr (value.drop (2 + sabmLen + udabmLen))
      .ok ⟨at8 value 0 &&& 0x80 != 0, slice value 2 (2 + sabmLen),
        slice value (2 + sabmLen) (2 + sabmLen + udabmLen), attrs⟩

/-- `decodeFlexAlgoDefinition(value)`. -/
def decodeFlexAlgoDefinition (value : Bytes) : Except CodecError FlexAlgoDefinition :=
  if value.length < 4 then .error .truncated
  else do
    let subs ← frames FlexAlgoSubSub.mk (value.drop 4)
    .ok ⟨at8 value 0, at8 value 1, at8 value 2, at8 value 3, subs⟩

/-- `decodeSRv6Capabilities(value)`. -/
def decodeSRv6Capabilities (value : Bytes) : Except CodecError SubTLV :=
  if value.length < 2 then .error .truncated
  else .ok (.srv6Capabilities (u16At value 0) (value.drop 2))

/-- The walk of `decodeSIDSubSubTLVs`: the first SID Structure of the right size is taken, anything
else is preserved in order. -/
def sortSIDSubSubTLVs : List (UInt8 × Bytes) → Option SIDStructure × List UnknownSubTLV
  | [] => (none, [])
  | (t, v) :: rest =>
    if t = subSubTLVSIDStruct ∧ v.length = 4 then
      -- a later SID Structure is a duplicate, kept opaque
      (some ⟨at8 v 0, at8 v 1, at8 v 2, at8 v 3⟩, rest.map fun (t, v) => ⟨t, v, false⟩)
    else
      let (st, unknown) := sortSIDSubSubTLVs rest
      (st, ⟨t, v, false⟩ :: unknown)

/-- `decodeSIDSubSubTLVs(sub)`. -/
def decodeSIDSubSubTLVs (sub : Bytes) :
    Except CodecError (Option SIDStructure × List UnknownSubTLV) := do
  let items ← frames Prod.mk sub
  .ok (sortSIDSubSubTLVs items)

/-- `decodeEndXSIDBody(v)`. -/
def decodeEndXSIDBody (v : Bytes) : Except CodecError EndXSID :=
  if v.length < 22 then .error .truncated
  else
    let subLen := (at8 v 21).toNat
    if v.length < 22 + subLen then .error .truncated
    else do
      let (st, unknown) ← decodeSIDSubSubTLVs (slice v 22 (22 + subLen))
      .ok ⟨at8 v 0, at8 v 1, at8 v 2, u16At v 3, .v6 (Octets.ofList 16 (v.drop 5)), st, unknown⟩

/-- `decodeLANEndXSID(v)`. -/
def decodeLANEndXSID (v : Bytes) : Except CodecError SubTLV :=
  if v.length < 6 then .error .truncated
  else do
    let s ← decodeEndXSIDBody (v.drop 6)
    .ok (.lanEndXSID (systemIDAt v 0) s)

/-- `decodeSubTLV(ctx, typ, value)`: the registered decoder, or the opaque form. Nothing is
registered for prefix TLVs, and the ASLA registry is `decodeLinkAttr`. -/
def decodeSubTLV (ctx : SubTLVContext) (typ : UInt8) (value : Bytes) : SubTLV :=
  match ctx with
  | .isReachability =>
    if typ = subTLVASLA then orRefused typ value .unknown .asla (decodeASLA value)
    else if typ = subTLVAdminGroup then
      orRefused typ value .unknown .adminGroup (decodeAdminGroup value)
    else if typ = subTLVExtendedAdminGroup then
      orRefused typ value .unknown .adminGroup (decodeExtendedAdminGroup value)
    else if typ = subTLVSRv6EndXSID then
      orRefused typ value .unknown .endXSID (decodeEndXSIDBody value)
    else if typ = subTLVSRv6LANEndXSID then
      orRefused typ value .unknown id (decodeLANEndXSID value)
    else .unknown ⟨typ, value, false⟩
  | .routerCapability =>
    if typ = subTLVSRAlgorithm then .srAlgorithm value
    else if typ = subTLVFlexAlgoDef then
      orRefused typ value .unknown .flexAlgoDef (decodeFlexAlgoDefinition value)
    else if typ = subTLVSRv6Capabilities then
      orRefused typ value .unknown id (decodeSRv6Capabilities value)
    else .unknown ⟨typ, value, false⟩
  | .ipReachability | .asla => .unknown ⟨typ, value, false⟩

/-- `decodeSubTLVs(ctx, b)`. -/
def decodeSubTLVs (ctx : SubTLVContext) (b : Bytes) : Except CodecError (List SubTLV) :=
  frames (decodeSubTLV ctx) b

end Goisis.Packet
