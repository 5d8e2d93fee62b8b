import ReplayRenderer.Splice.Dhilog

/-!
The `.dilog` v2 container: its value, its writer and its reader. The writer
fills a zeroed header at offsets and appends the rest, the reader slices the
file at offsets of its own; nothing is shared between the two but the
constants.
-/

namespace ReplayRenderer

open Lib Lib.Outcome

abbrev NodeId := UInt64
abbrev SnapshotRef := Bytes32
abbrev StateHash := Bytes32

/-- `"DILOG\0\r\n"`. -/
def containerMagic : Bytes := [0x44, 0x49, 0x4C, 0x4F, 0x47, 0x00, 0x0D, 0x0A]

def endMagic : Bytes := [0x44, 0x49, 0x4C, 0x4F, 0x47, 0x45, 0x4E, 0x44]

def containerVersion : UInt32 := 2
def headerLen : Nat := 160
def tableEntryLen : Nat := 152
def footerLen : Nat := 40

/-- Container flags bit 0: every segment carries EPOCH_HASH AUX records. -/
def cflagEpochHashes : UInt32 := 1

structure DeterminismClass where
  cpuModel : String
  microcode : String
  hostKernel : String
  vmmVersion : String
  deriving DecidableEq, Repr

structure ContainerMeta where
  version : UInt32
  experimentId : String
  goalNodeId : UInt64
  determinismClass : DeterminismClass
  producer : String
  deriving DecidableEq, Repr

/-- What the container takes from `serde_json`: a string as a JSON literal,
and the parser of the META record, with its error as displayed. -/
structure SerdeJson where
  toString : String → String
  fromSlice : Bytes → Except String ContainerMeta

section Meta

variable (serde : SerdeJson)

def ContainerMeta.canonicalJson (m : ContainerMeta) : String :=
  "\x7b\"version\":" ++ toString m.version.toNat
    ++ ",\"experiment_id\":" ++ serde.toString m.experimentId
    ++ ",\"goal_node_id\":" ++ toString m.goalNodeId.toNat
    ++ ",\"determinism_class\":\x7b\"cpu_model\":" ++ serde.toString m.determinismClass.cpuModel
    ++ ",\"microcode\":" ++ serde.toString m.determinismClass.microcode
    ++ ",\"host_kernel\":" ++ serde.toString m.determinismClass.hostKernel
    ++ ",\"vmm_version\":" ++ serde.toString m.determinismClass.vmmVersion
    ++ "\x7d,\"producer\":" ++ serde.toString m.producer
    ++ "\x7d"

/-- `meta.canonical_json().as_bytes()`. -/
def ContainerMeta.canonicalBytes (m : ContainerMeta) : Bytes := utf8 (m.canonicalJson serde)

end Meta

structure ContainerSegment where
  /-- The child node of this edge. -/
  nodeId : UInt64
  baseSnapshotRef : Bytes32
  childSnapshotRef : Bytes32
  endStateHash : Bytes32
  logId : Bytes32
  blob : DhilogSegment
  deriving DecidableEq

structure DilogContainer where
  epochHashesEverywhere : Bool
  rootSnapshotRef : Bytes32
  guestImageId : Bytes32
  machineConfigHash : Bytes32
  clockNum : UInt32
  clockDen : UInt32
  fpsNum : UInt32
  fpsDen : UInt32
  containerMeta : ContainerMeta
  segments : List ContainerSegment
  deriving DecidableEq

inductive ContainerError where
  | truncated (what : String)
  | badMagic
  | unsupportedVersion (version : UInt32)
  | nonzeroReserved
  | badEndMagic
  | badFooterHash
  | nonCanonical (what : String)
  | metaInvalid (what : String)
  | segment (index : UInt32) (detail : String)
  | tableHeaderDisagreement (index : UInt32) (detail : String)
  deriving DecidableEq, Repr

/-! ### Writer -/

section Writer

variable (blake3 : Bytes → Bytes32) (serde : SerdeJson)

def DilogContainer.headerBytes (c : DilogContainer) : Bytes :=
  let out := zeros headerLen
  let out := copyAt out 0 containerMagic
  let out := copyAt out 8 (le32 containerVersion)
  let flags : UInt32 := if c.epochHashesEverywhere then cflagEpochHashes else 0
  let out := copyAt out 12 (le32 flags)
  let out := copyAt out 16 (le32 (UInt32.ofNat c.segments.length))
  let out := copyAt out 20 (le32 (UInt32.ofNat (c.containerMeta.canonicalBytes serde).length))
  let out := copyAt out 24 c.rootSnapshotRef.bytes
  let out := copyAt out 56 c.guestImageId.bytes
  let out := copyAt out 88 c.machineConfigHash.bytes
  let out := copyAt out 120 (le32 c.clockNum)
  let out := copyAt out 124 (le32 c.clockDen)
  let out := copyAt out 128 (le32 c.fpsNum)
  copyAt out 132 (le32 c.fpsDen)

def writeTable (out : Bytes) (blobOffset : UInt64) : List ContainerSegment → Bytes
  | [] => out
  | seg :: segs =>
    writeTable
      (out ++ le64 seg.nodeId ++ seg.baseSnapshotRef.bytes ++ seg.childSnapshotRef.bytes
        ++ seg.endStateHash.bytes ++ seg.logId.bytes ++ le64 blobOffset
        ++ le64 (UInt64.ofNat seg.blob.bytes.length))
      (blobOffset + UInt64.ofNat (pad8 seg.blob.bytes.length)) segs

def writeBlobs (out : Bytes) : List ContainerSegment → Bytes
  | [] => out
  | seg :: segs =>
    let out := out ++ seg.blob.bytes
    writeBlobs (resize out (pad8 out.length)) segs

def DilogContainer.write (c : DilogContainer) : Bytes :=
  let metaBytes := c.containerMeta.canonicalBytes serde
  let metaPadded := pad8 metaBytes.length
  let tableOff := headerLen + metaPadded
  let blobsOff := tableOff + c.segments.length * tableEntryLen
  let out := c.headerBytes serde ++ metaBytes
  let out := resize out (headerLen + metaPadded)
  let out := writeTable out (UInt64.ofNat blobsOff) c.segments
  let out := writeBlobs out c.segments
  let footerHash := blake3 out
  out ++ footerHash.bytes ++ endMagic

end Writer

/-! ### Reader -/

/-- `a.checked_add(b)` on `usize`. -/
def checkedAdd (a b : Nat) : Option Nat := if a + b < u64Bound then some (a + b) else none

/-- `a.checked_mul(b)` on `usize`. -/
def checkedMul (a b : Nat) : Option Nat := if a * b < u64Bound then some (a * b) else none

/-- `(len + 7) & !7` on `usize`; the addition is the ordinary one. -/
def pad8Checked {ε : Type} (len : Nat) : Outcome ε Nat := do
  let _ ← u64Add len 7
  pure (pad8 len)

/-- What the segment loop of the reader has at hand and does not change. -/
structure ReadContext where
  bytes : Bytes
  tableOff : Nat
  footerStart : Nat
  rootSnapshotRef : Bytes32
  machineConfigHash : Bytes32
  clockNum : UInt32
  clockDen : UInt32

/-- What it changes. The loop index is the number of segments pushed. -/
structure ReadState where
  segments : List ContainerSegment
  expectedBlobOff : Nat

section Reader

variable (blake3 : Bytes → Bytes32) (serde : SerdeJson)

/-- The base the next segment must have: the root, or the previous entry's
child. -/
def ReadState.expectedBase (st : ReadState) (ctx : ReadContext) :
    Outcome ContainerError Bytes32 :=
  if st.segments.length = 0 then
    .ok ctx.rootSnapshotRef
  else do
    let prev ← Outcome.expect st.segments[st.segments.length - 1]?
    pure prev.childSnapshotRef

def readSegment (ctx : ReadContext) (st : ReadState) : Outcome ContainerError ReadState := do
  let i := st.segments.length
  let idx := UInt32.ofNat (i + 1)
  let e ← slice ctx.bytes (ctx.tableOff + i * tableEntryLen)
    (ctx.tableOff + (i + 1) * tableEntryLen)
  let nodeId ← u64At e 0
  let baseSnapshotRef ← bytes32At e 8
  let childSnapshotRef ← bytes32At e 40
  let endStateHash ← bytes32At e 72
  let logId ← bytes32At e 104
  let blobOffset ← u64At e 136
  let blobLen ← u64At e 144
  -- the announced offset has to be the running one, so nothing is skipped
  rejectIf (blobOffset ≠ UInt64.ofNat st.expectedBlobOff)
    (.nonCanonical ("segment " ++ toString idx.toNat ++ " blob_offset "
      ++ toString blobOffset.toNat ++ " != expected " ++ toString st.expectedBlobOff))
  let blobEnd ← Outcome.okOr (.truncated "blob extent overflow")
    (checkedAdd st.expectedBlobOff blobLen.toNat)
  rejectIf (ctx.footerStart < blobEnd) (.truncated "blob overruns the file")
  let paddedEnd ← pad8Checked blobEnd
  rejectIf (ctx.footerStart < paddedEnd) (.truncated "blob padding overruns the file")
  let blobBytes ← slice ctx.bytes st.expectedBlobOff blobEnd
  let padding ← slice ctx.bytes blobEnd paddedEnd
  rejectIf (padding.any (· ≠ 0) = true)
    (.nonCanonical ("segment " ++ toString idx.toNat ++ " blob padding not zero"))
  let seg ← (DhilogSegment.parse blobBytes).mapErr fun e => .segment idx e.display
  let h := seg.header
  rejectIf (h.version ∉ supportedDhilogVersions)
    (.segment idx ("unsupported DHILOG version 0x" ++ hexDigits 4 h.version.toNat))
  (validateStructure blake3 seg).mapErr fun issue =>
    .segment idx (issue.rule.display ++ ": " ++ issue.detail)
  let disagree (detail : String) : ContainerError := .tableHeaderDisagreement idx detail
  rejectIf (baseSnapshotRef ≠ h.baseSnapshotId)
    (disagree "base_snapshot_ref != header base_snapshot_id")
  rejectIf (childSnapshotRef ≠ h.endSnapshotId)
    (disagree "child_snapshot_ref != header end_snapshot_id")
  rejectIf (endStateHash ≠ h.endStateHash) (disagree "end_state_hash != header end_state_hash")
  rejectIf (h.machineConfigHash ≠ ctx.machineConfigHash)
    (disagree "header machine_config_hash != container's")
  rejectIf ((h.clockNum, h.clockDen) ≠ (ctx.clockNum, ctx.clockDen))
    (disagree "header clock rational != container's")
  let expectedBase ← st.expectedBase ctx
  rejectIf (baseSnapshotRef ≠ expectedBase)
    (disagree "base_snapshot_ref breaks the table's adjacency chain")
  let pushed : ContainerSegment :=
    { nodeId, baseSnapshotRef, childSnapshotRef, endStateHash, logId, blob := seg }
  pure { segments := st.segments ++ [pushed], expectedBlobOff := paddedEnd }

/-- `for i in 0..segment_count`. -/
def readSegments (ctx : ReadContext) : Nat → ReadState → Outcome ContainerError ReadState
  | 0, st => .ok st
  | n + 1, st => do
    let st' ← readSegment blake3 ctx st
    readSegments ctx n st'

def DilogContainer.read (bytes : Bytes) : Outcome ContainerError DilogContainer := do
  rejectIf (bytes.length < headerLen + footerLen) (.truncated "shorter than header + footer")
  let magic ← slice bytes 0 8
  rejectIf (magic ≠ containerMagic) .badMagic
  let version ← u32At bytes 8
  rejectIf (version ≠ containerVersion) (.unsupportedVersion version)
  let flags ← u32At bytes 12
  rejectIf (flags &&& ~~~cflagEpochHashes ≠ 0) .nonzeroReserved
  let reserved ← slice bytes 136 160
  rejectIf (reserved.any (· ≠ 0) = true) .nonzeroReserved
  let footerStart ← u64Sub bytes.length footerLen
  let fileEnd ← slice bytes (footerStart + 32) bytes.length
  rejectIf (fileEnd ≠ endMagic) .badEndMagic
  -- the whole body is hashed before anything in it is trusted
  let body ← slice bytes 0 footerStart
  let footerHash ← slice bytes footerStart (footerStart + 32)
  rejectIf ((blake3 body).bytes ≠ footerHash) .badFooterHash
  let segmentCount := (← u32At bytes 16).toNat
  let metaLen := (← u32At bytes 20).toNat
  rejectIf (segmentCount = 0) (.nonCanonical "segment_count == 0")
  let metaPadded ← pad8Checked metaLen
  let tableOff ← Outcome.okOr (.truncated "meta_len overflow") (checkedAdd headerLen metaPadded)
  let tableLen ← Outcome.okOr (.truncated "segment_count overflow")
    (checkedMul segmentCount tableEntryLen)
  let blobsOff ← Outcome.okOr (.truncated "table extent overflow")
    (checkedAdd tableOff tableLen)
  rejectIf (footerStart < blobsOff) (.truncated "META + table overrun the file")
  let metaBytes ← slice bytes headerLen (headerLen + metaLen)
  let metaPadding ← slice bytes (headerLen + metaLen) tableOff
  rejectIf (metaPadding.any (· ≠ 0) = true) (.nonCanonical "META padding not zero")
  let containerMeta ← (Outcome.ofExcept (serde.fromSlice metaBytes)).mapErr fun e =>
    .metaInvalid ("invalid JSON: " ++ e)
  rejectIf (containerMeta.version ≠ 1)
    (.metaInvalid ("unknown META version " ++ toString containerMeta.version.toNat))
  -- only the bytes the writer would have written for this META are accepted
  rejectIf (containerMeta.canonicalBytes serde ≠ metaBytes)
    (.nonCanonical "META is not in canonical field order/encoding")
  let rootSnapshotRef ← bytes32At bytes 24
  let machineConfigHash ← bytes32At bytes 88
  let clockNum ← u32At bytes 120
  let clockDen ← u32At bytes 124
  let ctx : ReadContext :=
    { bytes, tableOff, footerStart, rootSnapshotRef, machineConfigHash, clockNum, clockDen }
  let st ← readSegments blake3 ctx segmentCount { segments := [], expectedBlobOff := blobsOff }
  rejectIf (st.expectedBlobOff ≠ footerStart)
    (.nonCanonical "trailing bytes between the last blob and the footer")
  let allEpochs := st.segments.all fun s => s.blob.header.flags &&& flagEpochHashes ≠ 0
  rejectIf (decide (flags &&& cflagEpochHashes ≠ 0) ≠ allEpochs)
    (.nonCanonical "flags bit0 does not equal the AND of segment EPOCH_HASHES flags")
  let guestImageId ← bytes32At bytes 56
  let fpsNum ← u32At bytes 128
  let fpsDen ← u32At bytes 132
  pure {
    epochHashesEverywhere := allEpochs
    rootSnapshotRef, guestImageId, machineConfigHash, clockNum, clockDen, fpsNum, fpsDen
    containerMeta
    segments := st.segments }

end Reader

end ReplayRenderer
