import ReplayRenderer.Lib.Bytes

/-!
The `.rfp` frame pack: its value, its writer and its reader. The writer
appends; the reader parses the header, looks for a footer in the last 49
bytes, and walks the records up to the footer, or to the end of the input
when there is none.
-/

namespace ReplayRenderer

open Lib Lib.Outcome

inductive PixelFormat where
  | rgb555Le
  | bgr555Le
  | rgb565Le
  | indexed8 (paletteGpa : UInt64)
  deriving DecidableEq, Repr

structure FramebufferDesc where
  gpaBase : UInt64
  width : UInt16
  height : UInt16
  strideBytes : UInt32
  pixelFormat : PixelFormat
  deriving DecidableEq, Repr

structure Bytes16 where
  bytes : Bytes
  length_bytes : bytes.length = 16
  deriving DecidableEq

attribute [simp] Bytes16.length_bytes

def rfpMagic : Bytes := [0x52, 0x46, 0x50, 0x4B, 0x30, 0x30, 0x30, 0x32]

/-- `"RFPEND\0\0"`. -/
def rfpEndMagic : Bytes := [0x52, 0x46, 0x50, 0x45, 0x4E, 0x44, 0x00, 0x00]

def rfpHeaderLen : Nat := 60
def rfpRecordHeaderLen : Nat := 28
def rfpFooterLen : Nat := 49

inductive RfpError where
  | truncated (what : String)
  | badMagic
  | unsupportedVersion (version : UInt32)
  | unknownPixFmt (v : UInt8)
  | unknownComp (v : UInt8)
  | unsupportedFormat (f : PixelFormat)
  deriving DecidableEq, Repr

def pixFmtToU8 (f : PixelFormat) : Outcome RfpError UInt8 :=
  match f with
  | .rgb555Le => .ok 0
  | .bgr555Le => .ok 1
  | .rgb565Le => .ok 2
  | .indexed8 _ => .err (.unsupportedFormat f)

def pixFmtFromU8 (v : UInt8) : Outcome RfpError PixelFormat :=
  if v = 0 then .ok .rgb555Le
  else if v = 1 then .ok .bgr555Le
  else if v = 2 then .ok .rgb565Le
  else .err (.unknownPixFmt v)

inductive Comp where
  | raw
  | lz4
  deriving DecidableEq, Repr

def Comp.toU8 : Comp → UInt8
  | .raw => 0
  | .lz4 => 1

/-- The `match` on the comp byte. -/
def Comp.fromU8 (v : UInt8) : Option Comp :=
  if v = 0 then some .raw
  else if v = 1 then some .lz4
  else none

structure RfpHeader where
  flags : UInt32
  desc : FramebufferDesc
  clockNum : UInt32
  clockDen : UInt32
  jobId : Bytes16
  deriving DecidableEq

structure RfpRecord where
  frameIndex : UInt64
  segmentIndex : UInt32
  comp : Comp
  icount : UInt64
  bytes : Bytes
  deriving DecidableEq

/-! ### Writer -/

/-- The buffer and the count. No list that fits in memory is long enough for
the count to wrap. -/
structure RfpWriter where
  buf : Bytes
  count : UInt64

def RfpWriter.new (header : RfpHeader) : Outcome RfpError RfpWriter := do
  let buf := rfpMagic ++ le32 2 ++ le32 header.flags ++ le64 header.desc.gpaBase
    ++ le16 header.desc.width ++ le16 header.desc.height ++ le32 header.desc.strideBytes
  let pixFmt ← pixFmtToU8 header.desc.pixelFormat
  let buf := buf ++ [pixFmt] ++ zeros 3 ++ le32 header.clockNum ++ le32 header.clockDen
    ++ header.jobId.bytes
  pure { buf, count := 0 }

def RfpWriter.push (w : RfpWriter) (record : RfpRecord) : RfpWriter :=
  { buf := w.buf ++ le64 record.frameIndex ++ le32 record.segmentIndex ++ [record.comp.toU8]
      ++ zeros 3 ++ le64 record.icount ++ le32 (UInt32.ofNat record.bytes.length)
      ++ record.bytes
    count := w.count + 1 }

def RfpWriter.finish (blake3 : Bytes → Bytes32) (w : RfpWriter) (complete : Bool) : Bytes :=
  w.buf ++ rfpEndMagic ++ le64 w.count ++ [if complete then 1 else 0] ++ (blake3 w.buf).bytes

def writeRfp (blake3 : Bytes → Bytes32) (header : RfpHeader) (records : List RfpRecord)
    (complete : Bool) : Outcome RfpError Bytes := do
  let w ← RfpWriter.new header
  pure ((records.foldl RfpWriter.push w).finish blake3 complete)

/-! ### Reader -/

inductive RfpReadOutcome where
  /-- Resume-from-spool allowed. -/
  | complete (header : RfpHeader) (records : List RfpRecord)
  /-- Forensics only, refused for resume. -/
  | torn (header : RfpHeader) (records : List RfpRecord)
  deriving DecidableEq

def RfpReadOutcome.header : RfpReadOutcome → RfpHeader
  | .complete header _ => header
  | .torn header _ => header

def RfpReadOutcome.records : RfpReadOutcome → List RfpRecord
  | .complete _ records => records
  | .torn _ records => records

/-- `bytes[off..off + 16].try_into().expect("16 bytes")`. -/
def bytes16At {ε : Type} (b : Bytes) (off : Nat) : Outcome ε Bytes16 := do
  let s ← slice b off (off + 16)
  if h : s.length = 16 then .ok ⟨s, h⟩ else .panic

def readRfpHeader (bytes : Bytes) : Outcome RfpError RfpHeader := do
  rejectIf (bytes.length < rfpHeaderLen) (.truncated "shorter than the 60-byte header")
  let magic ← slice bytes 0 8
  rejectIf (magic ≠ rfpMagic) .badMagic
  let version ← u32At bytes 8
  rejectIf (version ≠ 2) (.unsupportedVersion version)
  let flags ← u32At bytes 12
  let gpaBase ← u64At bytes 16
  let width ← u16At bytes 24
  let height ← u16At bytes 26
  let strideBytes ← u32At bytes 28
  let pixFmt ← Outcome.expect bytes[32]?
  let pixelFormat ← pixFmtFromU8 pixFmt
  let clockNum ← u32At bytes 36
  let clockDen ← u32At bytes 40
  let jobId ← bytes16At bytes 44
  pure {
    flags
    desc := { gpaBase, width, height, strideBytes, pixelFormat }
    clockNum, clockDen, jobId }

section Reader

variable {ε : Type} (blake3 : Bytes → Bytes32)

/-- Where the footer starts, if the last 49 bytes are one. -/
def footerOk (bytes : Bytes) : Outcome ε (Option Nat) :=
  if bytes.length < rfpFooterLen then .ok none
  else do
    let fs := bytes.length - rfpFooterLen
    let magic ← slice bytes fs (fs + 8)
    if magic ≠ rfpEndMagic then pure none
    else do
      let body ← slice bytes 0 fs
      let hash ← slice bytes (fs + 17) (fs + 49)
      if (blake3 body).bytes = hash then pure (some fs) else pure none

/-- The record loop at `off`: the records still to be read, and whether the
framing held up to the end of the zone. Every record moves `off` forward, so
as many steps as there are bytes are enough. -/
def readRecords (bytes : Bytes) (recordZoneEnd : Nat) :
    Nat → Nat → Outcome ε (List RfpRecord × Bool)
  | 0, _ => .ok ([], true)
  | fuel + 1, off =>
    if off < recordZoneEnd then do
      let left ← u64Sub recordZoneEnd off
      if left < rfpRecordHeaderLen then pure ([], false)
      else do
        let r ← slice bytes off bytes.length
        let len := (← u32At r 24).toNat
        let room ← u64Sub left rfpRecordHeaderLen
        if room < len then pure ([], false)
        else do
          let compByte ← Outcome.expect r[12]?
          match Comp.fromU8 compByte with
          | none => pure ([], false)
          | some comp => do
            let frameIndex ← u64At r 0
            let segmentIndex ← u32At r 8
            let icount ← u64At r 16
            let payload ← slice r rfpRecordHeaderLen (rfpRecordHeaderLen + len)
            let (records, framingOk) ←
              readRecords bytes recordZoneEnd fuel (off + (rfpRecordHeaderLen + len))
            pure ({ frameIndex, segmentIndex, comp, icount, bytes := payload } :: records,
              framingOk)
    else pure ([], true)

def readRfp (bytes : Bytes) : Outcome RfpError RfpReadOutcome := do
  let header ← readRfpHeader bytes
  let footer ← footerOk blake3 bytes
  let recordZoneEnd := footer.getD bytes.length
  let (records, framingOk) ← readRecords bytes recordZoneEnd bytes.length rfpHeaderLen
  match footer with
  | some fs =>
    if framingOk then do
      let count ← u64At bytes (fs + 8)
      let flag ← Outcome.expect bytes[fs + 16]?
      if flag = 1 ∧ count = UInt64.ofNat records.length then
        pure (.complete header records)
      else pure (.torn header records)
    else pure (.torn header records)
  | none => pure (.torn header records)

end Reader

end ReplayRenderer
