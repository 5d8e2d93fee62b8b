import ReplayRenderer.Frames.Convert
import ReplayRenderer.Frames.Scale

/-!
Native frames as pictures. A native frame is the bytes of a framebuffer; what it
shows is the colour of each of its 16-bit pixels, and an upscale shows each of
them `s` times in both directions.
-/

namespace ReplayRenderer

open Lib Lib.Outcome

def FramebufferDesc.word (desc : FramebufferDesc) (native : Bytes) (x y : Nat) : Nat :=
  leNat ((native.drop (y * desc.strideBytes.toNat + 2 * x)).take 2)

def FramebufferDesc.picture (desc : FramebufferDesc) (native : Bytes) : Rgb24Frame :=
  Rgb24Frame.ofPixels desc.width.toUInt32 desc.height.toUInt32 fun x y =>
    desc.pixelFormat.expand (desc.word native x y)

/-- A framebuffer of a 16-bit format whose rows hold their pixels. -/
structure FramebufferDesc.Displays (desc : FramebufferDesc) : Prop where
  sixteen : ∀ gpa, desc.pixelFormat ≠ .indexed8 gpa
  stride : 2 * desc.width.toNat ≤ desc.strideBytes.toNat

section Picture

variable {desc : FramebufferDesc} {native : Bytes}

/-- The rows of a whole buffer reach as far as the conversion reads. -/
theorem FramebufferDesc.Displays.needed_le (hdesc : desc.Displays) :
    desc.needed ≤ desc.strideBytes.toNat * desc.height.toNat := by
  rw [FramebufferDesc.needed]
  by_cases hzero : desc.height = 0
  · rw [if_pos hzero]
    exact Nat.zero_le _
  · have hpos : desc.height.toNat ≠ 0 := fun h => hzero (UInt16.toNat_inj.mp h)
    obtain ⟨rows, hrows⟩ := Nat.exists_eq_succ_of_ne_zero hpos
    have hstride := hdesc.stride
    rw [if_neg hzero, hrows, Nat.succ_sub_one, Nat.mul_succ, Nat.mul_comm]
    omega

theorem word_eq_of_sitsAt {v : UInt16} {x y : Nat}
    (h : SitsAt native (y * desc.strideBytes.toNat + 2 * x) (le16 v)) :
    desc.word native x y = v.toNat := by
  rw [sitsAt_iff, length_le16] at h
  rw [FramebufferDesc.word, h.2]
  exact leNat_leBytes v.toNat_lt

theorem convert_eq_picture (hdesc : desc.Displays) {lut : Lut}
    (hlut : Lut.forFormat desc.pixelFormat = .ok lut)
    (hlen : native.length = desc.strideBytes.toNat * desc.height.toNat) :
    lut.convert native desc = .ok (desc.picture native) := by
  have hneeded : desc.needed ≤ native.length := hlen ▸ hdesc.needed_le
  obtain ⟨v, hv⟩ := exists_native hneeded
  rw [convert_of_fits hlut hdesc.stride hneeded hv, FramebufferDesc.picture]
  congr 1
  refine Rgb24Frame.ofPixels_congr fun x hx y hy => ?_
  rw [UInt16.toNat_toUInt32] at hx hy
  rw [word_eq_of_sitsAt (hv x hx y hy)]

theorem FramebufferDesc.Displays.wellFormed_picture (hdesc : desc.Displays) :
    (desc.picture native).WellFormed :=
  Rgb24Frame.wellFormed_ofPixels fun _ _ _ _ => length_expand hdesc.sixteen _

theorem FramebufferDesc.Displays.pixel_picture (hdesc : desc.Displays) {x y : Nat}
    (hx : x < desc.width.toNat) (hy : y < desc.height.toNat) :
    (desc.picture native).pixel x y = desc.pixelFormat.expand (desc.word native x y) :=
  Rgb24Frame.pixel_ofPixels (fun _ _ _ _ => length_expand hdesc.sixteen _) (by simpa using hx)
    (by simpa using hy)

end Picture

/-! ### Upscaled pictures -/

structure FramebufferDesc.UpscaleFits (desc : FramebufferDesc) (s : Nat) : Prop where
  width : s * desc.width.toNat < 2 ^ 32
  height : s * desc.height.toNat < 2 ^ 32
  bytes : 3 * (s * desc.width.toNat) * (s * desc.height.toNat) ≤ isizeMax

section Upscale

variable {desc : FramebufferDesc} {s : UInt32} {native : Bytes}

theorem FramebufferDesc.UpscaleFits.scaleFits (hfits : desc.UpscaleFits s.toNat) :
    (desc.picture native).ScaleFits s.toNat := by
  have hwidth : (desc.picture native).width.toNat = desc.width.toNat := UInt16.toNat_toUInt32 _
  have hheight : (desc.picture native).height.toNat = desc.height.toNat := UInt16.toNat_toUInt32 _
  refine ⟨?_, ?_, ?_⟩
  · rw [hwidth]
    exact hfits.width
  · rw [hheight]
    exact hfits.height
  · rw [hwidth, hheight]
    exact hfits.bytes

theorem FramebufferDesc.UpscaleFits.toNat_scaled (hfits : desc.UpscaleFits s.toNat)
    (native : Bytes) :
    ((desc.picture native).scaled s).width.toNat = s.toNat * desc.width.toNat ∧
      ((desc.picture native).scaled s).height.toNat = s.toNat * desc.height.toNat := by
  have hscale : (desc.picture native).ScaleFits s.toNat := hfits.scaleFits
  have hwidth : (desc.picture native).width.toNat = desc.width.toNat := UInt16.toNat_toUInt32 _
  have hheight : (desc.picture native).height.toNat = desc.height.toNat := UInt16.toNat_toUInt32 _
  rw [← hwidth, ← hheight]
  exact Rgb24Frame.toNat_scaled hscale

theorem pixel_scaled_picture (hdesc : desc.Displays) (hfits : desc.UpscaleFits s.toNat) {x y : Nat}
    (hx : x < ((desc.picture native).scaled s).width.toNat)
    (hy : y < ((desc.picture native).scaled s).height.toNat) :
    ((desc.picture native).scaled s).pixel x y =
      desc.pixelFormat.expand (desc.word native (x / s.toNat) (y / s.toNat)) := by
  have hscale : (desc.picture native).ScaleFits s.toNat := hfits.scaleFits
  have hup := Rgb24Frame.scaledBy_scaled hdesc.wellFormed_picture hscale
  obtain ⟨hx', hy'⟩ := Rgb24Frame.source_lt hscale hx hy
  have hwidth : (desc.picture native).width.toNat = desc.width.toNat := UInt16.toNat_toUInt32 _
  have hheight : (desc.picture native).height.toNat = desc.height.toNat := UInt16.toNat_toUInt32 _
  rw [hwidth] at hx'
  rw [hheight] at hy'
  rw [hup.pixel x hx y hy]
  exact hdesc.pixel_picture hx' hy'

theorem inMemory_scaled_picture (hdesc : desc.Displays) (hfits : desc.UpscaleFits s.toNat) :
    ((desc.picture native).scaled s).InMemory := by
  have hscale : (desc.picture native).ScaleFits s.toNat := hfits.scaleFits
  have hup := Rgb24Frame.scaledBy_scaled hdesc.wellFormed_picture hscale
  refine ⟨hup.wellFormed, ?_⟩
  rw [hup.wellFormed, hup.width, hup.height]
  exact hscale.bytes

end Upscale

end ReplayRenderer
