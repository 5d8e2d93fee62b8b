import ReplayRenderer.MockHv.Guest
import ReplayRenderer.Splice.Dhilog

/-!
The DHILOG writer of the toy guest. It merges epoch boundaries, the skew,
the scripted events and the frame marks into one order, runs the guest along
it, and emits a record for everything but the skew. Its assertions, and the
overflows it does not check for, are panics.
-/

namespace ReplayRenderer

open Lib Lib.Outcome

inductive CanonicalEvent where
  | padSet (port : UInt8) (buttons frameHint : UInt32)
  | devEvent (deviceId eventType : UInt16) (data : Bytes)
  | netRx (frame : Bytes)
  deriving DecidableEq

/-- The payload layout, without the assertion on its length. -/
def CanonicalEvent.payloadBytes : CanonicalEvent → Bytes
  | .padSet port buttons frameHint => [port] ++ zeros 3 ++ le32 buttons ++ le32 frameHint
  | .devEvent deviceId eventType data =>
    le16 deviceId ++ le16 eventType ++ le32 (UInt32.ofNat data.length) ++ data
  | .netRx frame => frame

def CanonicalEvent.kind : CanonicalEvent → UInt8
  | .padSet .. => kindPadSet
  | .devEvent .. => kindDevEvent
  | .netRx _ => kindNetRx

structure ScriptEvent where
  icount : UInt64
  event : CanonicalEvent
  deriving DecidableEq

structure FrameMark where
  frameIndex : UInt32
  icount : UInt64
  deriving DecidableEq

/-- Everything needed to emit one sealed segment. -/
structure SegmentSpec where
  baseSnapshotId : Bytes32
  endSnapshotId : Bytes32
  entropySeed : Bytes32
  machineConfigHash : Bytes32
  clockNum : UInt32
  clockDen : UInt32
  endIcount : UInt64
  events : List ScriptEvent
  frameMarks : List FrameMark
  skewAt : Option UInt64
  omitEpochHashes : Bool
  deriving DecidableEq

def boundaryRip (icount : UInt64) : UInt64 := 0x00400000 + ((icount * 7) &&& 0xFFFF)

inductive Emission where
  | epochHash (epochIndex : Nat)
  | skew
  | canonical (event : CanonicalEvent)
  | frameMark (frameIndex : UInt32)
  | end_
  deriving DecidableEq

/-- Merge order at equal icount. -/
def Emission.rank : Emission → Nat
  | .epochHash _ => 0
  | .skew => 1
  | .canonical _ => 2
  | .frameMark _ => 3
  | .end_ => 4

structure Scheduled where
  icount : Nat
  tie : Nat
  emission : Emission
  deriving DecidableEq

/-- The sort key, `(icount, rank, tie)`. -/
def Scheduled.le (a b : Scheduled) : Prop :=
  a.icount < b.icount ∨ (a.icount = b.icount ∧
    (a.emission.rank < b.emission.rank ∨
      (a.emission.rank = b.emission.rank ∧ a.tie ≤ b.tie)))

instance : DecidableRel Scheduled.le := fun a b =>
  inferInstanceAs (Decidable (a.icount < b.icount ∨ _))

section Writer

variable {ε : Type}

def CanonicalEvent.payload (ev : CanonicalEvent) : Outcome ε Bytes :=
  match ev with
  | .netRx frame => do
    require (frame.length ≤ 2048)
    pure ev.payloadBytes
  | _ => .ok ev.payloadBytes

def CanonicalEvent.foldInto (ev : CanonicalEvent) (sim : GuestSim) : Outcome ε GuestSim := do
  let payload ← ev.payload
  pure ((sim.foldBytes [ev.kind]).foldBytes payload)

def epochLoopEmissions (endIcount : Nat) : Nat → Nat → Outcome ε (List Scheduled)
  | 0, _ => .ok []
  | fuel + 1, k => do
    let boundary ← u64Mul k mockEpochIcounts
    if boundary ≤ endIcount then do
      let rest ← epochLoopEmissions endIcount fuel (k + 1)
      pure ({ icount := boundary, tie := 0, emission := .epochHash k } :: rest)
    else pure []

def SegmentSpec.epochEmissions (spec : SegmentSpec) : Outcome ε (List Scheduled) :=
  if spec.omitEpochHashes then .ok []
  else
    epochLoopEmissions spec.endIcount.toNat (spec.endIcount.toNat / mockEpochIcounts + 1) 1

def SegmentSpec.skewEmissions (spec : SegmentSpec) : Outcome ε (List Scheduled) :=
  match spec.skewAt with
  | none => .ok []
  | some at_ => do
    require (at_ ≤ spec.endIcount)
    pure [{ icount := at_.toNat, tie := 0, emission := .skew }]

def SegmentSpec.eventEmissions (spec : SegmentSpec) : List Scheduled :=
  spec.events.zipIdx.map fun (ev, i) =>
    { icount := ev.icount.toNat, tie := i, emission := .canonical ev.event }

def SegmentSpec.frameEmissions (spec : SegmentSpec) : List Scheduled :=
  spec.frameMarks.zipIdx.map fun (fm, i) =>
    { icount := fm.icount.toNat, tie := i, emission := .frameMark fm.frameIndex }

def SegmentSpec.endEmission (spec : SegmentSpec) : Scheduled :=
  { icount := spec.endIcount.toNat, tie := 0, emission := .end_ }

def SegmentSpec.emissions (spec : SegmentSpec) : Outcome ε (List Scheduled) := do
  let epochs ← spec.epochEmissions
  let skew ← spec.skewEmissions
  pure ((epochs ++ skew ++ spec.eventEmissions ++ spec.frameEmissions
    ++ [spec.endEmission]).insertionSort Scheduled.le)

/-- Append one record: the header, and the payload zero-padded to eight. -/
def pushRecord (body : Bytes) (kind rflags : UInt8) (seq icount : Nat) (payload : Bytes) :
    Outcome ε Bytes := do
  require (payload.length ≤ 4096)
  pure (body ++ [kind] ++ [rflags] ++ le16 (UInt16.ofNat payload.length)
    ++ le32 (UInt32.ofNat seq) ++ le64 (UInt64.ofNat icount)
    ++ le64 (boundaryRip (UInt64.ofNat icount)) ++ payload ++ zeros ((8 - payload.length % 8) % 8))

/-- `seq += 1` on a `u32`. -/
def nextSeq (seq : Nat) : Outcome ε Nat := do
  require (seq + 1 < 2 ^ 32)
  pure (seq + 1)

structure WriterState where
  sim : GuestSim
  body : Bytes
  seq : Nat
  endStateHash : Bytes32

section Hashing

variable (blake3 : Bytes → Bytes32)

/-- The loop body, after the guest has stepped to the emission. -/
def emit (w : WriterState) (e : Scheduled) : Outcome ε WriterState :=
  match e.emission with
  | .epochHash epochIndex => do
    let p := leBytes 8 epochIndex ++ w.sim.chain.bytes
    let body ← pushRecord w.body kindEpochHash rflagAux w.seq e.icount p
    let seq ← nextSeq w.seq
    pure { w with body, seq }
  | .skew => pure { w with sim := w.sim.foldBytes skewFold }
  | .canonical ev => do
    let sim ← ev.foldInto w.sim
    let payload ← ev.payload
    let body ← pushRecord w.body ev.kind 0 w.seq e.icount payload
    let seq ← nextSeq w.seq
    pure { w with sim, body, seq }
  | .frameMark frameIndex => do
    let p := le32 frameIndex ++ zeros 4
    let body ← pushRecord w.body kindFrameMark rflagAux w.seq e.icount p
    let seq ← nextSeq w.seq
    pure { w with body, seq }
  | .end_ => do
    let endStateHash := w.sim.chainValue blake3
    -- stop_reason: BUDGET_REACHED
    let p := [1] ++ zeros 7 ++ endStateHash.bytes
    let body ← pushRecord w.body kindEnd rflagAux w.seq e.icount p
    let seq ← nextSeq w.seq
    pure { w with body, seq, endStateHash }

def emitAll : WriterState → List Scheduled → Outcome ε WriterState
  | w, [] => .ok w
  | w, e :: es => do
    let sim ← w.sim.stepTo blake3 e.icount
    let w ← emit blake3 { w with sim } e
    emitAll w es

/-- The 256 header bytes, field by field into zeroed space. -/
def SegmentSpec.headerBytes (spec : SegmentSpec) (flags : UInt32)
    (recordCount endVns : UInt64) (endStateHash bodyHash : Bytes32) : Bytes :=
  let out := zeros dhilogHeaderLen
  let out := copyAt out 0 dhilogMagic
  let out := copyAt out 6 (le16 0x0100)
  let out := copyAt out 8 (le32 (UInt32.ofNat dhilogHeaderLen))
  let out := copyAt out 12 (le32 flags)
  let out := copyAt out 16 spec.baseSnapshotId.bytes
  let out := copyAt out 48 spec.endSnapshotId.bytes
  let out := copyAt out 80 spec.entropySeed.bytes
  let out := copyAt out 112 spec.machineConfigHash.bytes
  let out := copyAt out 144 (le32 spec.clockNum)
  let out := copyAt out 148 (le32 spec.clockDen)
  let out := copyAt out 152 (le64 recordCount)
  let out := copyAt out 160 (le64 spec.endIcount)
  let out := copyAt out 168 (le64 endVns)
  let out := copyAt out 176 endStateHash.bytes
  copyAt out 208 bodyHash.bytes

def writeSegment (spec : SegmentSpec) : Outcome ε (Bytes × Bytes32) := do
  require (spec.events.IsChain fun a b => a.icount ≤ b.icount)
  require (∀ ev ∈ spec.events, ev.icount ≤ spec.endIcount)
  require (∀ fm ∈ spec.frameMarks, fm.icount ≤ spec.endIcount)
  let emissions ← spec.emissions
  let sim := GuestSim.new blake3 spec.machineConfigHash spec.baseSnapshotId
  let w ← emitAll blake3 { sim, body := [], seq := 0, endStateHash := Bytes32.zero } emissions
  let bodyHash := blake3 w.body
  let flags : UInt32 :=
    if spec.omitEpochHashes then flagSealed ||| flagHasAux
    else flagSealed ||| flagHasAux ||| flagEpochHashes
  require (spec.clockDen ≠ 0)
  let product ← u64Mul spec.endIcount.toNat spec.clockNum.toNat
  let endVns := UInt64.ofNat (product / spec.clockDen.toNat)
  pure (spec.headerBytes flags (UInt64.ofNat w.seq) endVns w.endStateHash bodyHash ++ w.body,
    w.endStateHash)

end Hashing

end Writer

end ReplayRenderer
