import ReplayRenderer.Frames.Codec

/-!
From a pack to the stdin of the encoder. The frames of the pack are upscaled,
padded to even sides and written one after the other without anything between
them, so all the child has to find a pixel is the size it was told: pixel
`(x, y)` of frame `t` is the three bytes at `(t * height + y) * width + x`.
-/

namespace ReplayRenderer

open Lib Lib.Outcome

/-- `pad_to_even(&scale_nn(f, s))`. -/
def encoderFrame {ε : Type} (s : UInt32) (frame : Rgb24Frame) : Outcome ε Rgb24Frame := do
  let up ← scaleNn frame s
  padToEven up

def encoderWrites (blake3 : Bytes → Bytes32) (lz4 : Lz4) (pack : Bytes) (limit : Nat)
    (s : UInt32) : Outcome Empty (List Bytes) := do
  let frames ← loadRgb24 blake3 lz4 pack limit
  frames.mapM fun frame => do
    let up ← encoderFrame s frame
    pure up.pixels

/-- The pixel at `(x, y)` of a video frame: that of the native frame it was
scaled from, or the black of the padding. -/
def FramebufferDesc.videoPixel (desc : FramebufferDesc) (s : Nat) (native : Bytes) (x y : Nat) :
    Bytes :=
  if x < s * desc.width.toNat ∧ y < s * desc.height.toNat then
    desc.pixelFormat.expand (desc.word native (x / s) (y / s))
  else zeros 3

def FramebufferDesc.videoFrame (desc : FramebufferDesc) (s : UInt32) (native : Bytes) :
    Rgb24Frame :=
  Rgb24Frame.ofPixels (UInt32.ofNat (evenUp (s.toNat * desc.width.toNat)))
    (UInt32.ofNat (evenUp (s.toNat * desc.height.toNat))) (desc.videoPixel s.toNat native)

/-- A video frame fits: its sides in 32 bits, its bytes in an allocation. -/
structure FramebufferDesc.VideoFits (desc : FramebufferDesc) (s : Nat) : Prop where
  width : evenUp (s * desc.width.toNat) < 2 ^ 32
  height : evenUp (s * desc.height.toNat) < 2 ^ 32
  bytes : 3 * evenUp (s * desc.width.toNat) * evenUp (s * desc.height.toNat) ≤ isizeMax

section Feed

variable {desc : FramebufferDesc} {s : UInt32} {native : Bytes}

theorem FramebufferDesc.Displays.length_videoPixel (hdesc : desc.Displays) (s : Nat)
    (native : Bytes) (x y : Nat) : (desc.videoPixel s native x y).length = 3 := by
  rw [FramebufferDesc.videoPixel]
  split
  · exact length_expand hdesc.sixteen _
  · exact length_zeros 3

theorem FramebufferDesc.VideoFits.upscaleFits (hfits : desc.VideoFits s.toNat) :
    desc.UpscaleFits s.toNat := by
  have hw := le_evenUp (s.toNat * desc.width.toNat)
  have hh := le_evenUp (s.toNat * desc.height.toNat)
  refine ⟨hw.trans_lt hfits.width, hh.trans_lt hfits.height, ?_⟩
  exact (Nat.mul_le_mul (Nat.mul_le_mul_left 3 hw) hh).trans hfits.bytes

theorem FramebufferDesc.VideoFits.toNat_videoFrame (hfits : desc.VideoFits s.toNat)
    (native : Bytes) :
    (desc.videoFrame s native).width.toNat = evenUp (s.toNat * desc.width.toNat) ∧
      (desc.videoFrame s native).height.toNat = evenUp (s.toNat * desc.height.toNat) :=
  ⟨UInt32.toNat_ofNat_of_lt' hfits.width, UInt32.toNat_ofNat_of_lt' hfits.height⟩

theorem pixelOrBlack_scaled (hdesc : desc.Displays) (hfits : desc.VideoFits s.toNat) (x y : Nat) :
    ((desc.picture native).scaled s).pixelOrBlack x y = desc.videoPixel s.toNat native x y := by
  have hsides := hfits.upscaleFits.toNat_scaled native
  rw [Rgb24Frame.pixelOrBlack, FramebufferDesc.videoPixel, hsides.1, hsides.2]
  by_cases hin : x < s.toNat * desc.width.toNat ∧ y < s.toNat * desc.height.toNat
  · rw [if_pos hin, if_pos hin]
    exact pixel_scaled_picture hdesc hfits.upscaleFits (hsides.1 ▸ hin.1) (hsides.2 ▸ hin.2)
  · rw [if_neg hin, if_neg hin]

/-- A side of the padder, which counts in 32 bits. -/
theorem add_mod_two_eq {n : UInt32} {m : Nat} (hn : n.toNat = m) (hfits : evenUp m < 2 ^ 32) :
    n + n % 2 = UInt32.ofNat (evenUp m) := by
  subst hn
  have hsum := (toNat_evenUp (ε := Empty) hfits).2.1
  exact UInt32.toNat_inj.mp (hsum.trans (UInt32.toNat_ofNat_of_lt' hfits).symm)

theorem encoderFrame_picture {ε : Type} (hdesc : desc.Displays) (hs : 1 ≤ s.toNat)
    (hfits : desc.VideoFits s.toNat) :
    (encoderFrame s (desc.picture native) : Outcome ε Rgb24Frame) =
      .ok (desc.videoFrame s native) := by
  have hf : (desc.picture native).WellFormed := hdesc.wellFormed_picture
  have hscale : (desc.picture native).ScaleFits s.toNat := hfits.upscaleFits.scaleFits
  have hscaled := Rgb24Frame.scaledBy_scaled hf hscale
  obtain ⟨hwidth, hheight⟩ := hfits.upscaleFits.toNat_scaled native
  have hpad : ((desc.picture native).scaled s).PadFits := by
    refine ⟨?_, ?_, ?_⟩
    · rw [hwidth]
      exact hfits.width
    · rw [hheight]
      exact hfits.height
    · rw [hwidth, hheight]
      exact hfits.bytes
  rw [encoderFrame, scaleNn_eq hf hs hscale, ok_bind,
    padToEven_eq hscaled.wellFormed hpad, Rgb24Frame.padded, FramebufferDesc.videoFrame,
    add_mod_two_eq hwidth hfits.width, add_mod_two_eq hheight hfits.height]
  congr 2
  ext x y : 2
  exact pixelOrBlack_scaled hdesc hfits x y

theorem FramebufferDesc.Displays.wellFormed_videoFrame (hdesc : desc.Displays) :
    (desc.videoFrame s native).WellFormed :=
  Rgb24Frame.wellFormed_ofPixels fun x _ y _ => hdesc.length_videoPixel s.toNat native x y

def FramebufferDesc.videoWrites (desc : FramebufferDesc) (s : UInt32) (natives : List Bytes) :
    List Bytes :=
  natives.map fun native => (desc.videoFrame s native).pixels

theorem length_of_mem_videoWrites (hdesc : desc.Displays) (hfits : desc.VideoFits s.toNat)
    {natives : List Bytes} : ∀ pixels ∈ desc.videoWrites s natives,
      pixels.length = evenUp (s.toNat * desc.height.toNat) *
        (evenUp (s.toNat * desc.width.toNat) * 3) := by
  intro pixels hmem
  obtain ⟨native, -, rfl⟩ := List.mem_map.mp hmem
  obtain ⟨hwidth, hheight⟩ := hfits.toNat_videoFrame native
  rw [← hwidth, ← hheight]
  exact Rgb24Frame.wellFormed_iff.mp hdesc.wellFormed_videoFrame

/-- The stream of video frames, cut at the size of a pixel. -/
theorem cell_videoWrites (hdesc : desc.Displays) (hfits : desc.VideoFits s.toNat)
    {natives : List Bytes} {t x y : Nat} (hnative : natives[t]? = some native)
    (hx : x < evenUp (s.toNat * desc.width.toNat))
    (hy : y < evenUp (s.toNat * desc.height.toNat)) :
    cell 3 (desc.videoWrites s natives).flatten
      ((t * evenUp (s.toNat * desc.height.toNat) + y) * evenUp (s.toNat * desc.width.toNat) + x) =
        desc.videoPixel s.toNat native x y := by
  obtain ⟨hwidth, hheight⟩ := hfits.toNat_videoFrame native
  have hframe : (desc.videoWrites s natives)[t]? = some (desc.videoFrame s native).pixels := by
    rw [FramebufferDesc.videoWrites, List.getElem?_map, hnative, Option.map_some]
  have hpixel : (desc.videoFrame s native).pixel x y = desc.videoPixel s.toNat native x y :=
    Rgb24Frame.pixel_ofPixels (fun x _ y _ => hdesc.length_videoPixel s.toNat native x y)
      (hwidth.symm ▸ hx) (hheight.symm ▸ hy)
  -- from the stream to the frame, to the row, to the pixel
  rw [← cell_cell _ hx, ← cell_cell _ hy,
    cell_flatten (length_of_mem_videoWrites hdesc hfits) hframe, ← hpixel,
    Rgb24Frame.pixel_eq_cell (hwidth.symm ▸ hx), hwidth]

end Feed

/-- What the child can find in its input. A pack of native frames, some raw and
some compressed, is loaded back and fed to the encoder without a panic; the
input is as long as its frames, and pixel `(x, y)` of frame `t` stands where
the sides of the video say, with the colour of the native pixel it came from. -/
theorem encoderWrites_writeRfp {blake3 : Bytes → Bytes32} {lz4 : Lz4} (hlz4 : lz4.Lossless)
    {header : RfpHeader} (hdesc : header.desc.Displays) {frames : List NativeFrame}
    (hframes : ∀ frame ∈ frames, frame.Packable lz4 header.desc) (limit : Nat) {s : UInt32}
    (hs : 1 ≤ s.toNat) (hfits : header.desc.VideoFits s.toNat) :
    ∃ pack writes, writeRfp blake3 header (frames.map (NativeFrame.record lz4)) true = .ok pack ∧
      encoderWrites blake3 lz4 pack limit s = .ok writes ∧
      writes.flatten.length = min limit frames.length *
        (3 * evenUp (s.toNat * header.desc.width.toNat) *
          evenUp (s.toNat * header.desc.height.toNat)) ∧
      ∀ t frame, t < limit → frames[t]? = some frame →
        ∀ x < evenUp (s.toNat * header.desc.width.toNat),
          ∀ y < evenUp (s.toNat * header.desc.height.toNat),
            cell 3 writes.flatten
              ((t * evenUp (s.toNat * header.desc.height.toNat) + y) *
                evenUp (s.toNat * header.desc.width.toNat) + x) =
                  header.desc.videoPixel s.toNat frame.native x y := by
  obtain ⟨pack, hwrite, hload⟩ := loadRgb24_writeRfp blake3 hlz4 hdesc hframes limit
  have hvideo : ∀ frame ∈ frames.take limit,
      (encoderFrame s (header.desc.picture frame.native) >>= fun up => pure up.pixels :
        Outcome Empty Bytes) = .ok (header.desc.videoFrame s frame.native).pixels := by
    intro frame _
    rw [encoderFrame_picture hdesc hs hfits, ok_bind, pure_eq]
  have hwrites : encoderWrites blake3 lz4 pack limit s =
      .ok (header.desc.videoWrites s ((frames.take limit).map NativeFrame.native)) := by
    rw [encoderWrites, hload, ok_bind, List.mapM_map, FramebufferDesc.videoWrites, List.map_map]
    exact mapM_of_ok hvideo
  refine ⟨pack, _, hwrite, hwrites, ?_, ?_⟩
  · rw [length_flatten_of_cells (length_of_mem_videoWrites hdesc hfits),
      FramebufferDesc.videoWrites, List.length_map, List.length_map, List.length_take]
    ring
  · intro t frame ht hframe x hx y hy
    apply cell_videoWrites hdesc hfits _ hx hy
    rw [List.getElem?_map, List.getElem?_take_of_lt ht, hframe, Option.map_some]

/-- What a block says ahead of a run of literals: a nibble of its length, then
bytes for the rest. -/
def literalsHead (n : Nat) : Bytes :=
  if n < 15 then [UInt8.ofNat (16 * n)]
  else 0xF0 :: (List.replicate ((n - 15) / 255) 0xFF ++ [UInt8.ofNat ((n - 15) % 255)])

/-- Blocks of one run of literals, as the compressor leaves input without
repeats. -/
def literalsLz4 : Lz4 where
  compressPrependSize raw := le32 (UInt32.ofNat raw.length) ++ (literalsHead raw.length ++ raw)
  decompressSizePrepended blob :=
    let n := leNat (blob.take 4)
    let raw := blob.drop (4 + (literalsHead n).length)
    if (blob.drop 4).take (literalsHead n).length = literalsHead n ∧ raw.length = n then .ok raw
    else .error "the expected decompressed size differs"

theorem literalsLz4_lossless : literalsLz4.Lossless := by
  intro raw hlen
  have hsize : leNat (le32 (UInt32.ofNat raw.length)) = raw.length := by
    rw [le32, UInt32.toNat_ofNat_of_lt' hlen]
    exact leNat_leBytes hlen
  have htake : (le32 (UInt32.ofNat raw.length) ++ (literalsHead raw.length ++ raw)).take 4 =
      le32 (UInt32.ofNat raw.length) := List.take_left' (length_le32 _)
  have hdrop : (le32 (UInt32.ofNat raw.length) ++ (literalsHead raw.length ++ raw)).drop 4 =
      literalsHead raw.length ++ raw := List.drop_left' (length_le32 _)
  simp only [literalsLz4, htake, hsize, ← List.drop_drop, hdrop, List.take_left, List.drop_left,
    and_self, if_true]

def twoPixels (comp : Comp) : NativeFrame where
  frameIndex := 1
  segmentIndex := 0
  comp := comp
  icount := 4096
  native := [0xFF, 0x7F, 0x00, 0x7C]

theorem encoderWrites_writeRfp_twoPixels :
    ∃ pack writes, writeRfp Blake3.hash rgbHeader
        ([twoPixels .raw, twoPixels .lz4].map (NativeFrame.record literalsLz4)) true = .ok pack ∧
      encoderWrites Blake3.hash literalsLz4 pack 2 3 = .ok writes ∧
      writes.flatten.length = 2 * (3 * 6 * 4) ∧
      cell 3 writes.flatten ((1 * 4 + 2) * 6 + 5) = [0xFF, 0, 0] ∧
        cell 3 writes.flatten ((1 * 4 + 3) * 6 + 5) = [0, 0, 0] := by
  have hdesc : rgbHeader.desc.Displays := ⟨by simp [rgbHeader], by decide⟩
  have hframes : ∀ frame ∈ [twoPixels .raw, twoPixels .lz4],
      frame.Packable literalsLz4 rgbHeader.desc := by
    simp only [List.forall_mem_cons, List.not_mem_nil, false_imp_iff, implies_true, and_true]
    exact ⟨⟨rfl, by decide, by decide⟩, ⟨rfl, by decide, by decide⟩⟩
  obtain ⟨pack, writes, hpack, hwrites, hlen, hpixel⟩ :=
    encoderWrites_writeRfp literalsLz4_lossless hdesc hframes 2 (s := 3) (by decide)
      ⟨by decide, by decide, by decide⟩
  refine ⟨pack, writes, hpack, hwrites, hlen, ?_, ?_⟩
  · exact (hpixel 1 _ (by decide) rfl 5 (by decide) 2 (by decide)).trans (by decide)
  · exact (hpixel 1 _ (by decide) rfl 5 (by decide) 3 (by decide)).trans (by decide)

end ReplayRenderer
