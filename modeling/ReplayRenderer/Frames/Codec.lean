import ReplayRenderer.Frames.Resume
import ReplayRenderer.Frames.Native

/-!
The frame codec, and native frames in a pack. A record of a pack holds its frame
raw or as an LZ4 block that carries its size; the loader takes the frames out of
a whole pack and converts each. The LZ4 block functions are a parameter: what the
codec relies on is that the one undoes the other.
-/

namespace ReplayRenderer

open Lib Lib.Outcome

/-- `lz4_flex::block`. -/
structure Lz4 where
  compressPrependSize : Bytes → Bytes
  decompressSizePrepended : Bytes → Except String Bytes

/-- Any block whose size fits its prefix comes back. -/
def Lz4.Lossless (lz4 : Lz4) : Prop :=
  ∀ raw : Bytes, raw.length < 2 ^ 32 →
    lz4.decompressSizePrepended (lz4.compressPrependSize raw) = .ok raw

inductive CodecError where
  | lz4 (detail : String)
  | wrongLength («have» want : Nat)
  deriving DecidableEq, Repr

def compressFrame (lz4 : Lz4) (raw : Bytes) : Bytes := lz4.compressPrependSize raw

def decompressFrame (lz4 : Lz4) (blob : Bytes) (expectedLen : Nat) : Outcome CodecError Bytes := do
  let out ← mapErr CodecError.lz4 (Outcome.ofExcept (lz4.decompressSizePrepended blob))
  rejectIf (out.length ≠ expectedLen) (.wrongLength out.length expectedLen)
  pure out

def RfpRecord.unpack (lz4 : Lz4) (nativeLen : Nat) (r : RfpRecord) : Outcome CodecError Bytes :=
  match r.comp with
  | .raw => .ok r.bytes
  | .lz4 => decompressFrame lz4 r.bytes nativeLen

/-- `load_fixture_rgb24` on the bytes of the pack. -/
def loadRgb24 (blake3 : Bytes → Bytes32) (lz4 : Lz4) (bytes : Bytes) (limit : Nat) :
    Outcome Empty (List Rgb24Frame) := do
  let outcome ← unwrap (readRfp blake3 bytes)
  match outcome with
  | .torn _ _ => .panic
  | .complete header records => do
    let lut ← unwrap (Lut.forFormat header.desc.pixelFormat)
    let nativeLen ← u64Mul header.desc.strideBytes.toNat header.desc.height.toNat
    (records.take limit).mapM fun r => do
      let raw ← unwrap (r.unpack lz4 nativeLen)
      unwrap (lut.convert raw header.desc)

/-! ### Frames that are packed -/

structure NativeFrame where
  frameIndex : UInt64
  segmentIndex : UInt32
  comp : Comp
  icount : UInt64
  native : Bytes

def NativeFrame.record (lz4 : Lz4) (frame : NativeFrame) : RfpRecord where
  frameIndex := frame.frameIndex
  segmentIndex := frame.segmentIndex
  comp := frame.comp
  icount := frame.icount
  bytes :=
    match frame.comp with
    | .raw => frame.native
    | .lz4 => compressFrame lz4 frame.native

/-- A frame of the framebuffer that the record format can store. -/
structure NativeFrame.Packable (lz4 : Lz4) (desc : FramebufferDesc) (frame : NativeFrame) :
    Prop where
  length_eq : frame.native.length = desc.strideBytes.toNat * desc.height.toNat
  native_lt : frame.native.length < 2 ^ 32
  record_lt : (frame.record lz4).bytes.length < 2 ^ 32

section Loading

variable {lz4 : Lz4} {desc : FramebufferDesc}

theorem decompressFrame_compressFrame (hlz4 : lz4.Lossless) {raw : Bytes}
    (hlen : raw.length < 2 ^ 32) :
    decompressFrame lz4 (compressFrame lz4 raw) raw.length = .ok raw := by
  have hout : mapErr CodecError.lz4 (Outcome.ofExcept
      (lz4.decompressSizePrepended (lz4.compressPrependSize raw))) = .ok raw := by
    simp [hlz4 raw hlen]
  rw [decompressFrame, compressFrame, hout, ok_bind, rejectIf_neg (not_not.mpr rfl), ok_bind,
    pure_eq]

theorem NativeFrame.unpack_record (hlz4 : lz4.Lossless) {frame : NativeFrame} {nativeLen : Nat}
    (hlen : frame.native.length = nativeLen) (hlt : frame.native.length < 2 ^ 32) :
    (frame.record lz4).unpack lz4 nativeLen = .ok frame.native := by
  subst hlen
  cases hcomp : frame.comp with
  | raw => simp [RfpRecord.unpack, NativeFrame.record, hcomp]
  | lz4 =>
      simp only [RfpRecord.unpack, NativeFrame.record, hcomp]
      exact decompressFrame_compressFrame hlz4 hlt

theorem FramebufferDesc.Displays.exists_pixFmt (hdesc : desc.Displays) :
    ∃ pixFmt, pixFmtToU8 desc.pixelFormat = .ok pixFmt := by
  cases hformat : desc.pixelFormat with
  | indexed8 gpa => exact absurd hformat (hdesc.sixteen gpa)
  | _ => exact ⟨_, rfl⟩

/-- A pack that is written whole loads, and the frames are the pictures. -/
theorem loadRgb24_writeRfp (blake3 : Bytes → Bytes32) (hlz4 : lz4.Lossless) {header : RfpHeader}
    (hdesc : header.desc.Displays) {frames : List NativeFrame}
    (hframes : ∀ frame ∈ frames, frame.Packable lz4 header.desc) (limit : Nat) :
    ∃ pack, writeRfp blake3 header (frames.map (NativeFrame.record lz4)) true = .ok pack ∧
      loadRgb24 blake3 lz4 pack limit =
        .ok ((frames.take limit).map fun frame => header.desc.picture frame.native) := by
  obtain ⟨pixFmt, hformat⟩ := hdesc.exists_pixFmt
  obtain ⟨lut, hlut⟩ := exists_lut hdesc.sixteen
  have hlen : ∀ r ∈ frames.map (NativeFrame.record lz4), r.bytes.length < 2 ^ 32 :=
    List.forall_mem_map.mpr fun frame hframe => (hframes frame hframe).record_lt
  obtain ⟨fs, hpack⟩ := packAt_packBytes blake3 header pixFmt hlen true
  refine ⟨_, writeRfp_eq_ok.mpr ⟨pixFmt, hformat, rfl⟩, ?_⟩
  have hread := hpack.readRfp blake3 hformat
  rw [if_pos rfl, if_pos rfl] at hread
  have hbound : header.desc.strideBytes.toNat * header.desc.height.toNat ≤ 2 ^ 32 * 2 ^ 16 :=
    Nat.mul_le_mul header.desc.strideBytes.toNat_lt.le header.desc.height.toNat_lt.le
  have hsize : (u64Mul header.desc.strideBytes.toNat header.desc.height.toNat :
      Outcome Empty Nat) = .ok _ := u64Mul_of_lt (by unfold u64Bound; omega)
  simp only [loadRgb24, hread, unwrap_ok, ok_bind, hlut, hsize]
  rw [← List.map_take, List.mapM_map]
  refine mapM_of_ok fun frame hframe => ?_
  obtain ⟨hnative, hlt, -⟩ := hframes frame (List.mem_of_mem_take hframe)
  rw [Function.comp_apply, NativeFrame.unpack_record hlz4 hnative hlt, unwrap_ok, ok_bind,
    convert_eq_picture hdesc hlut hnative, unwrap_ok]

end Loading

end ReplayRenderer
