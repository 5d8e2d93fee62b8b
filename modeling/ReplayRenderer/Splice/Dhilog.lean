import ReplayRenderer.Lib.Bytes
import ReplayRenderer.Lib.Text

/-!
DHILOG v1 segments: the fixed header, the record iterator, the payload
decoders and the structural validator. BLAKE3 is a parameter throughout;
nothing here depends on which function it is.
-/

namespace ReplayRenderer

open Lib Lib.Outcome

inductive RuleId where
  | r1 | r2 | r3 | r4 | r5 | r6
  deriving DecidableEq, Repr

def RuleId.display : RuleId → String
  | .r1 => "R1"
  | .r2 => "R2"
  | .r3 => "R3"
  | .r4 => "R4"
  | .r5 => "R5"
  | .r6 => "R6"

def dhilogHeaderLen : Nat := 256
def recordHeaderLen : Nat := 24

def flagSealed : UInt32 := 1
def flagHasAux : UInt32 := 2
def flagEpochHashes : UInt32 := 4

def kindPadSet : UInt8 := 0x01
def kindDevEvent : UInt8 := 0x02
def kindNetRx : UInt8 := 0x03
def kindEpochHash : UInt8 := 0x42
def kindFrameMark : UInt8 := 0x45
def kindEnd : UInt8 := 0x7F
def rflagAux : UInt8 := 1

def supportedDhilogVersions : List UInt16 := [0x0100]

/-- Parse-level failure: the bytes are not a plausible DHILOG file. -/
inductive DhilogError where
  | truncated (what : String)
  | badMagic
  | badHeaderLen (len : UInt32)
  | nonzeroReserved
  | framing (what : String)
  deriving DecidableEq, Repr

def DhilogError.display : DhilogError → String
  | .truncated what => "truncated: " ++ what
  | .badMagic => "bad magic"
  | .badHeaderLen len => "header_len " ++ toString len.toNat ++ " != 256"
  | .nonzeroReserved => "reserved header bytes nonzero (reserved-means-zero rule)"
  | .framing what => "record framing: " ++ what

/-- Decoded 256-byte header. `version` and `flags` are carried, not judged. -/
structure DhilogHeader where
  version : UInt16
  flags : UInt32
  baseSnapshotId : Bytes32
  endSnapshotId : Bytes32
  entropySeed : Bytes32
  machineConfigHash : Bytes32
  clockNum : UInt32
  clockDen : UInt32
  recordCount : UInt64
  endIcount : UInt64
  endVns : UInt64
  endStateHash : Bytes32
  bodyHash : Bytes32
  deriving DecidableEq

def dhilogMagic : Bytes := [0x44, 0x48, 0x49, 0x4C, 0x4F, 0x47]

def parseHeader (bytes : Bytes) : Outcome DhilogError DhilogHeader := do
  rejectIf (bytes.length < dhilogHeaderLen)
    (.truncated "shorter than the 256-byte header")
  let magic ← slice bytes 0 6
  rejectIf (magic ≠ dhilogMagic) .badMagic
  let headerLen ← u32At bytes 8
  rejectIf (headerLen ≠ UInt32.ofNat dhilogHeaderLen) (.badHeaderLen headerLen)
  let reserved ← slice bytes 240 256
  rejectIf (reserved.any (· ≠ 0) = true) .nonzeroReserved
  let version ← u16At bytes 6
  let flags ← u32At bytes 12
  let baseSnapshotId ← bytes32At bytes 16
  let endSnapshotId ← bytes32At bytes 48
  let entropySeed ← bytes32At bytes 80
  let machineConfigHash ← bytes32At bytes 112
  let clockNum ← u32At bytes 144
  let clockDen ← u32At bytes 148
  let recordCount ← u64At bytes 152
  let endIcount ← u64At bytes 160
  let endVns ← u64At bytes 168
  let endStateHash ← bytes32At bytes 176
  let bodyHash ← bytes32At bytes 208
  pure {
    version, flags, baseSnapshotId, endSnapshotId, entropySeed,
    machineConfigHash, clockNum, clockDen, recordCount, endIcount, endVns,
    endStateHash, bodyHash }

/-- One sealed DHILOG segment: the original bytes plus the parsed header.
The fields are private in the source, so `parse` is the only way to get
one; `parsed` keeps that. -/
structure DhilogSegment where
  bytes : Bytes
  header : DhilogHeader
  parsed : parseHeader bytes = .ok header
  deriving DecidableEq

def DhilogSegment.parse (bytes : Bytes) : Outcome DhilogError DhilogSegment :=
  match h : parseHeader bytes with
  | .ok header => .ok ⟨bytes, header, h⟩
  | .err e => .err e
  | .panic => .panic

/-- Bytes parse to one segment, which keeps them. -/
theorem DhilogSegment.parse_eq_ok {bytes : Bytes} {seg : DhilogSegment} :
    DhilogSegment.parse bytes = .ok seg ↔ seg.bytes = bytes := by
  obtain ⟨segBytes, header, hparsed⟩ := seg
  unfold DhilogSegment.parse
  split
  · rename_i header' h
    simp only [Outcome.ok.injEq, DhilogSegment.mk.injEq]
    constructor
    · rintro ⟨rfl, -⟩
      rfl
    · rintro rfl
      exact ⟨rfl, Outcome.ok.inj (h.symm.trans hparsed)⟩
  · rename_i e h
    simp only [reduceCtorEq, false_iff]
    rintro rfl
    rw [hparsed] at h
    cases h
  · rename_i h
    simp only [reduceCtorEq, false_iff]
    rintro rfl
    rw [hparsed] at h
    cases h

structure Record where
  kind : UInt8
  rflags : UInt8
  seq : UInt32
  icount : UInt64
  boundaryRip : UInt64
  payload : Bytes
  deriving DecidableEq, Repr

def Record.isAux (r : Record) : Bool := r.rflags &&& rflagAux ≠ 0

/-- Framing facts the iterator observes beyond the record itself. -/
structure RecordFraming where
  paddingZeroed : Bool
  deriving DecidableEq, Repr

abbrev RecordItem := Except DhilogError (Record × RecordFraming)

structure RecordIter where
  buf : Bytes
  off : Nat

section Iterator

variable {ε : Type}

def RecordIter.next (it : RecordIter) :
    Outcome ε (Option RecordItem × RecordIter) := do
  if it.buf.length ≤ it.off then
    return (none, it)
  let rem ← slice it.buf it.off it.buf.length
  if rem.length < recordHeaderLen then
    return (some (.error (.framing "trailing bytes shorter than a record header")),
      { it with off := it.buf.length })
  let payloadLen := (← u16At rem 2).toNat
  let padded := pad8 payloadLen
  let total := recordHeaderLen + padded
  if rem.length < total then
    return (some (.error (.framing
        ("record payload_len " ++ toString payloadLen ++ " overruns the file"))),
      { it with off := it.buf.length })
  let kind ← Outcome.expect rem[0]?
  let rflags ← Outcome.expect rem[1]?
  let seq ← u32At rem 4
  let icount ← u64At rem 8
  let boundaryRip ← u64At rem 16
  let payload ← slice rem recordHeaderLen (recordHeaderLen + payloadLen)
  let padding ← slice rem (recordHeaderLen + payloadLen) total
  let framing : RecordFraming := { paddingZeroed := padding.all (· = 0) }
  return (some (.ok ({ kind, rflags, seq, icount, boundaryRip, payload }, framing)),
    { it with off := it.off + total })

/-- Everything the iterator yields. Every step that yields something moves
`off` forward, so as many steps as there are bytes are enough. -/
def RecordIter.drain : Nat → RecordIter → Outcome ε (List RecordItem)
  | 0, _ => .ok []
  | fuel + 1, it => do
    match ← it.next with
    | (none, _) => return []
    | (some item, it') =>
      let items ← RecordIter.drain fuel it'
      return item :: items

/-- `segment.records()`, as the list a `for` loop walks. -/
def DhilogSegment.records (segment : DhilogSegment) : Outcome ε (List RecordItem) :=
  RecordIter.drain segment.bytes.length { buf := segment.bytes, off := dhilogHeaderLen }

end Iterator

structure PadSet where
  port : UInt8
  buttons : UInt32
  frameHint : UInt32
  deriving DecidableEq, Repr

def decodePadSet (payload : Bytes) : Outcome DhilogError PadSet := do
  rejectIf (payload.length ≠ 12)
    (.framing ("PAD_SET payload is " ++ toString payload.length ++ " bytes, expected 12"))
  let port ← Outcome.expect payload[0]?
  let buttons ← u32At payload 4
  let frameHint ← u32At payload 8
  pure { port, buttons, frameHint }

theorem decodePadSet_eq_ok {payload : Bytes} {p : PadSet} :
    decodePadSet payload = .ok p ↔ payload.length = 12 ∧ SitsAt payload 0 [p.port] ∧
      SitsAt payload 4 (le32 p.buttons) ∧ SitsAt payload 8 (le32 p.frameHint) := by
  obtain ⟨port, buttons, frameHint⟩ := p
  simp [decodePadSet, bind_eq_ok, rejectIf_eq_ok, getElem?_eq_some_iff_sitsAt]

theorem exists_decodePadSet {payload : Bytes} (h : payload.length = 12) :
    ∃ p, decodePadSet payload = .ok p := by
  obtain ⟨port, hport⟩ := exists_sitsAt_byte payload 0 (by omega)
  obtain ⟨buttons, hbuttons⟩ := exists_sitsAt_le32 payload 4 (by omega)
  obtain ⟨frameHint, hframeHint⟩ := exists_sitsAt_le32 payload 8 (by omega)
  exact ⟨⟨port, buttons, frameHint⟩, decodePadSet_eq_ok.mpr ⟨h, hport, hbuttons, hframeHint⟩⟩

structure FrameMarkRec where
  frameIndex : UInt32
  deriving DecidableEq, Repr

def decodeFrameMark (payload : Bytes) : Outcome DhilogError FrameMarkRec := do
  rejectIf (payload.length ≠ 8)
    (.framing ("FRAME_MARK payload is " ++ toString payload.length ++ " bytes, expected 8"))
  let frameIndex ← u32At payload 0
  pure { frameIndex }

structure EndRec where
  stopReason : UInt8
  endStateHash : Bytes32
  deriving DecidableEq

def decodeEnd (payload : Bytes) : Outcome DhilogError EndRec := do
  rejectIf (payload.length ≠ 40)
    (.framing ("END payload is " ++ toString payload.length ++ " bytes, expected 40"))
  let stopReason ← Outcome.expect payload[0]?
  let endStateHash ← bytes32At payload 8
  pure { stopReason, endStateHash }

structure StructuralIssue where
  rule : RuleId
  detail : String
  deriving DecidableEq, Repr

def issueR4 (detail : String) : StructuralIssue := { rule := .r4, detail }
def issueR5 (detail : String) : StructuralIssue := { rule := .r5, detail }

structure RecordWalk where
  count : Nat
  prevIcount : UInt64
  endSeen : Bool

def RecordWalk.start : RecordWalk := { count := 0, prevIcount := 0, endSeen := false }

/-- The terminal record's own checks: `end_seen` is set when they pass. -/
def validateEnd (h : DhilogHeader) (rec : Record) : Outcome StructuralIssue Unit := do
  let terminal ← (decodeEnd rec.payload).mapErr fun e => issueR4 e.display
  rejectIf (rec.icount ≠ h.endIcount)
    (issueR5 ("END at icount " ++ toString rec.icount.toNat ++ " != end_icount "
      ++ toString h.endIcount.toNat))
  rejectIf (terminal.endStateHash ≠ h.endStateHash)
    (issueR4 "END end_state_hash != header end_state_hash")

def validateRecord (h : DhilogHeader) (walk : RecordWalk) (item : RecordItem) :
    Outcome StructuralIssue RecordWalk :=
  match item with
  | .error e => .err (issueR4 e.display)
  | .ok (rec, framing) => do
    rejectIf (walk.endSeen = true) (issueR5 "record after the terminal END")
    rejectIf (framing.paddingZeroed = false) (issueR4 "nonzero record padding bytes")
    rejectIf (rec.rflags &&& ~~~rflagAux ≠ 0)
      (issueR4 ("undefined rflags bits 0x" ++ hexDigits 2 rec.rflags.toNat))
    rejectIf (4096 < rec.payload.length)
      (issueR4 ("payload_len " ++ toString rec.payload.length ++ " > 4096"))
    rejectIf (rec.isAux = false ∧ rec.kind = kindNetRx ∧ 2048 < rec.payload.length)
      (issueR4 ("NET_RX payload " ++ toString rec.payload.length ++ " > 2048"))
    rejectIf (rec.isAux = false ∧ rec.kind ∉ [kindPadSet, kindDevEvent, kindNetRx])
      (issueR4 ("unknown canonical record kind 0x" ++ hexDigits 2 rec.kind.toNat
        ++ " (hard error)"))
    -- `seq` is a u32, so `count as u32` below would wrap past this point.
    rejectIf (2 ^ 32 - 1 < walk.count)
      (issueR5 "more records than seq (u32) can number")
    rejectIf (rec.seq ≠ UInt32.ofNat walk.count)
      (issueR5 ("seq " ++ toString rec.seq.toNat ++ " at record index "
        ++ toString walk.count ++ " (seq starts 0, step 1)"))
    rejectIf (rec.icount < walk.prevIcount)
      (issueR5 ("icount " ++ toString rec.icount.toNat ++ " decreases (prev "
        ++ toString walk.prevIcount.toNat ++ ")"))
    rejectIf (h.endIcount < rec.icount)
      (issueR5 ("record icount " ++ toString rec.icount.toNat ++ " > end_icount "
        ++ toString h.endIcount.toNat))
    if rec.kind = kindEnd ∧ rec.isAux = true then
      validateEnd h rec
      pure { count := walk.count + 1, prevIcount := rec.icount, endSeen := true }
    else
      pure { walk with count := walk.count + 1, prevIcount := rec.icount }

/-- `for item in segment.records()` with the body above. -/
def validateRecords (h : DhilogHeader) : RecordWalk → List RecordItem →
    Outcome StructuralIssue RecordWalk
  | walk, [] => .ok walk
  | walk, item :: items => do
    let walk' ← validateRecord h walk item
    validateRecords h walk' items

section Validator

variable (blake3 : Bytes → Bytes32)

def validateStructure (segment : DhilogSegment) : Outcome StructuralIssue Unit := do
  let h := segment.header
  rejectIf (h.flags &&& flagSealed = 0)
    (issueR4 "flags.SEALED == 0 (unsealed crash artifact)")
  rejectIf (h.endStateHash = Bytes32.zero) (issueR4 "end_state_hash is zero")
  let body ← slice segment.bytes dhilogHeaderLen segment.bytes.length
  rejectIf (blake3 body ≠ h.bodyHash) (issueR4 "body_hash mismatch over [256, EOF)")
  let items ← segment.records
  let walk ← validateRecords h RecordWalk.start items
  rejectIf (walk.endSeen = false) (issueR4 "terminal END record missing")
  rejectIf (walk.count ≠ h.recordCount.toNat)
    (issueR4 ("record_count " ++ toString h.recordCount.toNat ++ " != actual "
      ++ toString walk.count))

end Validator

end ReplayRenderer
