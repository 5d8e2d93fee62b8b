import ReplayRenderer.Splice.Container

/-!
Path assembly: the rules R1 to R6 over the path rows, and the pure function
that turns an accepted path into a container. An edge is a child node with
the segment that leads to it; `edges[i]` is the 1-based segment `i + 1`.
-/

namespace ReplayRenderer

open Lib Lib.Outcome

structure NodeAttrs where
  stateHash : Option StateHash
  deriving DecidableEq

structure PathNode where
  nodeId : NodeId
  parentId : Option NodeId
  snapshotRef : SnapshotRef
  inputLogId : Option Bytes32
  attrs : NodeAttrs
  deriving DecidableEq

abbrev Edge := PathNode × DhilogSegment

inductive SpliceError where
  | rule (rule : RuleId) (segmentIndex : UInt32) (detail : String)
  | verifyUnsupported (nodes : List NodeId)
  deriving DecidableEq, Repr

/-- `(i + 1) as u32`. -/
def segIdx (i : Nat) : UInt32 := UInt32.ofNat (i + 1)

/-- A `u16` slice as the alternate hexadecimal debug format prints it. -/
def debugVersions (versions : List UInt16) : String :=
  versions.foldl (fun acc v => acc ++ "    0x" ++ hexDigits 4 v.toNat ++ ",\n") "[\n" ++ "]"

/-- R1, version compatibility; `first` is what the loop carries. -/
def r1Loop : Option UInt16 → Nat → List Edge → Outcome SpliceError Unit
  | _, _, [] => .ok ()
  | first, i, (_, seg) :: edges => do
    let v := seg.header.version
    rejectIf (v ∉ supportedDhilogVersions)
      (.rule .r1 (segIdx i) ("unsupported DHILOG version 0x" ++ hexDigits 4 v.toNat
        ++ " (supported: " ++ debugVersions supportedDhilogVersions ++ ")"))
    match first with
    | none => r1Loop (some v) (i + 1) edges
    | some f => do
      rejectIf (f ≠ v)
        (.rule .r1 (segIdx i) ("mixed DHILOG versions on one path (0x" ++ hexDigits 4 f.toNat
          ++ " vs 0x" ++ hexDigits 4 v.toNat ++ ")"))
      r1Loop (some f) (i + 1) edges

def r1Versions (edges : List Edge) : Outcome SpliceError Unit := r1Loop none 0 edges

def r2MachineUniformity (edges : List Edge) : Outcome SpliceError Unit :=
  match edges.head? with
  | none => .ok ()
  | some (_, first) =>
    let f := first.header
    forEnumerate (fun i (_, seg) => do
      let h := seg.header
      rejectIf (h.machineConfigHash ≠ f.machineConfigHash)
        (.rule .r2 (segIdx i) "machine_config_hash differs from segment 1's")
      rejectIf ((h.clockNum, h.clockDen) ≠ (f.clockNum, f.clockDen))
        (.rule .r2 (segIdx i) ("clock rational " ++ toString h.clockNum.toNat ++ "/"
          ++ toString h.clockDen.toNat ++ " differs from segment 1's "
          ++ toString f.clockNum.toNat ++ "/" ++ toString f.clockDen.toNat))) 0 edges

def r3Edge (root : PathNode) (edges : List Edge) (i : Nat) (edge : Edge) :
    Outcome SpliceError Unit := do
  let (node, seg) := edge
  let base := seg.header.baseSnapshotId
  if i = 0 then
    rejectIf (base ≠ root.snapshotRef)
      (.rule .r3 1 "segment 1 base_snapshot_id != root snapshot_ref")
  else do
    let (prevNode, prevSeg) ← Outcome.expect edges[i - 1]?
    rejectIf (base ≠ prevNode.snapshotRef)
      (.rule .r3 (segIdx i) ("base_snapshot_id != path node " ++ toString prevNode.nodeId.toNat
        ++ "'s snapshot_ref"))
    rejectIf (prevNode.snapshotRef ≠ prevSeg.header.endSnapshotId)
      (.rule .r3 (segIdx i) ("path node " ++ toString prevNode.nodeId.toNat
        ++ "'s snapshot_ref != segment " ++ toString i ++ "'s end_snapshot_id"))
  let expectedParent ←
    if i = 0 then pure root.nodeId
    else do
      let (prevNode, _) ← Outcome.expect edges[i - 1]?
      pure prevNode.nodeId
  rejectIf (node.parentId ≠ some expectedParent)
    (.rule .r3 (segIdx i) ("node " ++ toString node.nodeId.toNat
      ++ "'s parent_id is not the preceding path node " ++ toString expectedParent.toNat))

def r3Adjacency (root : PathNode) (edges : List Edge) : Outcome SpliceError Unit :=
  forEnumerate (r3Edge root edges) 0 edges

section Structure

variable (blake3 : Bytes → Bytes32)

def r4R5Structure (edges : List Edge) : Outcome SpliceError Unit :=
  forEnumerate (fun i (_, seg) =>
    (validateStructure blake3 seg).mapErr fun issue =>
      .rule issue.rule (segIdx i) issue.detail) 0 edges

def r6DigestTable (edges : List Edge) : Outcome SpliceError Unit := do
  let missing := (edges.filter fun (node, _) => node.attrs.stateHash.isNone).map
    fun (node, _) => node.nodeId
  rejectIf (missing ≠ []) (.verifyUnsupported missing)
  forEnumerate (fun i (node, seg) => do
    let attr ← Outcome.expect node.attrs.stateHash
    rejectIf (attr ≠ seg.header.endStateHash)
      (.rule .r6 (segIdx i) ("node " ++ toString node.nodeId.toNat
        ++ "'s attrs.state_hash != segment end_state_hash (corrupt tree)"))) 0 edges

def validate (root : PathNode) (edges : List Edge) : Outcome SpliceError Unit := do
  r1Versions edges
  r2MachineUniformity edges
  r3Adjacency root edges
  r4R5Structure blake3 edges
  r6DigestTable edges

end Structure

/-! ### Assembly -/

/-- Assembly-time metadata not derivable from the path. -/
structure ContainerContext where
  experimentId : String
  guestImageId : Bytes32
  fpsNum : UInt32
  fpsDen : UInt32
  determinismClass : DeterminismClass
  deriving DecidableEq

def producerString : String := "replay-renderer/0.1.0"

def segmentTable : Nat → List Edge → Outcome SpliceError (List ContainerSegment)
  | _, [] => .ok []
  | i, (node, seg) :: edges => do
    let logId ← Outcome.okOr
      (.rule .r3 (segIdx i) ("node " ++ toString node.nodeId.toNat ++ " has no input_log_id"))
      node.inputLogId
    let h := seg.header
    let entry : ContainerSegment :=
      { nodeId := node.nodeId
        baseSnapshotRef := h.baseSnapshotId
        childSnapshotRef := h.endSnapshotId
        endStateHash := h.endStateHash
        logId
        blob := seg }
    let segments ← segmentTable (i + 1) edges
    pure (entry :: segments)

def assemble (blake3 : Bytes → Bytes32) (root : PathNode) (edges : List Edge)
    (ctx : ContainerContext) : Outcome SpliceError DilogContainer := do
  rejectIf (edges.isEmpty = true) (.rule .r3 0 "path has no edges (nothing to assemble)")
  validate blake3 root edges
  let (_, first) ← Outcome.expect edges[0]?
  let epochHashesEverywhere := edges.all fun (_, seg) =>
    seg.header.flags &&& flagEpochHashes ≠ 0
  let (goal, _) ← Outcome.expect edges.getLast?
  let segments ← segmentTable 0 edges
  pure {
    epochHashesEverywhere
    rootSnapshotRef := root.snapshotRef
    guestImageId := ctx.guestImageId
    machineConfigHash := first.header.machineConfigHash
    clockNum := first.header.clockNum
    clockDen := first.header.clockDen
    fpsNum := ctx.fpsNum
    fpsDen := ctx.fpsDen
    containerMeta := {
      version := 1
      experimentId := ctx.experimentId
      goalNodeId := goal.nodeId
      determinismClass := ctx.determinismClass
      producer := producerString }
    segments }

end ReplayRenderer
