import ReplayRenderer.Frames.Native
import ReplayRenderer.Overlay.Composed
import ReplayRenderer.Overlay.Strip

/-!
The frames of an overlaid render. One table and one strip serve all of them: a
native frame is converted by the table, upscaled, and composed with the strip at
the same scale. The result is known pixel by pixel, the strip with its ticks
included, from the native bytes and what the overlay is asked to show.
-/

namespace ReplayRenderer

open Lib Lib.Outcome

/-- `convert`, `scale_nn` and `compose`, one after the other. -/
def overlaidFrame (lut : Lut) (desc : FramebufferDesc) (s : UInt32) (opts : OverlayOptions)
    (strip : StripTexture) (native : Bytes) (ctx : FrameOverlayCtx) :
    Outcome Empty Rgb24Frame := do
  let rgb24 ← unwrap (lut.convert native desc)
  let up ← scaleNn rgb24 s
  compose up s ctx opts (some strip)

/-- The overlaid frames of `m3::generate`. -/
def overlaidFrames (desc : FramebufferDesc) (s : UInt32) (spec : StripSpec)
    (opts : OverlayOptions) (frames : List (Bytes × FrameOverlayCtx)) :
    Outcome Empty (List Rgb24Frame) := do
  let lut ← unwrap (Lut.forFormat desc.pixelFormat)
  let strip ← renderStrip spec
  frames.mapM fun frame => overlaidFrame lut desc s opts strip frame.1 frame.2

/-! ### The strip, ticks included -/

namespace StripSpec

def isTick (spec : StripSpec) (x : Nat) : Bool :=
  (spec.nodes.drop 1).any fun n =>
    frameToX n.firstFrame (max spec.totalFrames 1) spec.width = (x : Int)

/-- Ticks are dotted, and drawn over the line. -/
def stripPixel (spec : StripSpec) (x y : Nat) : Bytes :=
  if spec.isTick x = true ∧ y % 2 = 0 then stripTick.bytes else spec.linePixel x y

def picture (spec : StripSpec) : StripTexture where
  image := Rgb24Frame.ofPixels spec.width (UInt32.ofNat spec.height) spec.stripPixel

/-- The strip can be drawn, and fits an allocation. -/
structure Renderable (spec : StripSpec) : Prop extends spec.Drawable where
  bytes : 3 * spec.width.toNat * spec.height ≤ isizeMax

end StripSpec

section Ticks

variable {ε : Type} {spec : StripSpec} {width height : UInt32}

def tickDots (spec : StripSpec) (h : Nat) (n : TimelineNode) : Set (Int × Int) :=
  {p | p.1 = frameToX n.firstFrame (max spec.totalFrames 1) spec.width ∧
    (0 ≤ p.2 ∧ p.2 < h) ∧ p.2.tmod 2 = 0}

theorem drawTick_colors (spec : StripSpec) (h : Nat) (n : TimelineNode) :
    Colors (ε := ε) width height stripTick (tickDots spec h n) (drawTick spec h n) := by
  let x := frameToX n.firstFrame (max spec.totalFrames 1) spec.width
  have hdots : Colors (ε := ε) width height stripTick
      {p | ∃ y, (0 ≤ y ∧ y < (h : Int)) ∧ p ∈ {p | y.tmod 2 = 0 ∧ p ∈ ({(x, y)} : Set (Int × Int))}}
      fun image => forInt (fun y image => if y.tmod 2 = 0 then putPx image x y stripTick
        else .ok image) image 0 h :=
    Paints.forInt (color_idem stripTick) fun y _ _ => Paints.ite fun _ => putPx_colors x y
  refine hdots.congr ?_
  rintro ⟨a, b⟩
  simp only [tickDots, Set.mem_ofPred_eq, Set.mem_singleton_iff, Prod.mk.injEq]
  constructor
  · rintro ⟨y, hy, heven, rfl, rfl⟩
    exact ⟨rfl, hy, heven⟩
  · rintro ⟨rfl, hb, heven⟩
    exact ⟨b, hb, heven, rfl, rfl⟩

theorem StripSpec.isTick_iff {x : Nat} : spec.isTick x = true ↔
    ∃ (j : Nat) (n : TimelineNode), (spec.nodes.drop 1)[j]? = some n ∧
      (x : Int) = frameToX n.firstFrame (max spec.totalFrames 1) spec.width := by
  simp only [StripSpec.isTick, List.any_eq_true, decide_eq_true_eq]
  constructor
  · rintro ⟨n, hn, hx⟩
    obtain ⟨j, hj⟩ := List.getElem?_of_mem hn
    exact ⟨j, n, hj, hx.symm⟩
  · rintro ⟨j, n, hn, hx⟩
    exact ⟨n, List.mem_of_getElem? hn, hx.symm⟩

theorem StripSpec.mem_tickDots_iff {x y : Nat} (hy : y < spec.height) :
    ((x : Int), (y : Int)) ∈ {p | ∃ (j : Nat) (n : TimelineNode),
        (spec.nodes.drop 1)[j]? = some n ∧ p ∈ tickDots spec spec.height n} ↔
      spec.isTick x = true ∧ y % 2 = 0 := by
  have heven : (y : Int).tmod 2 = 0 ↔ y % 2 = 0 := by
    rw [Int.tmod_eq_emod_of_nonneg (Int.natCast_nonneg y)]
    omega
  simp only [tickDots, Set.mem_ofPred_eq, heven, StripSpec.isTick_iff]
  constructor
  · rintro ⟨j, n, hn, hx, -, hrow⟩
    exact ⟨⟨j, n, hn, hx⟩, hrow⟩
  · rintro ⟨⟨j, n, hn, hx⟩, hrow⟩
    exact ⟨j, n, hn, hx, by omega, hrow⟩

/-- The strip is its picture. -/
theorem renderStrip_eq (h : spec.Renderable) :
    (renderStrip spec : Outcome ε StripTexture) = .ok spec.picture := by
  have hheight := h.toDrawable.toNat_height
  have hbytes : 3 * spec.width.toNat * (UInt32.ofNat spec.height).toNat ≤ isizeMax := by
    rw [hheight]
    exact h.bytes
  have hblack := Rgb24Frame.black_eq (ε := ε) hbytes
  have hline := stepLine_eq (ε := ε) h.toDrawable
  rw [hblack, ok_bind] at hline
  have hticks : Colors (ε := ε) spec.width (UInt32.ofNat spec.height) stripTick
      {p | ∃ (j : Nat) (n : TimelineNode), (spec.nodes.drop 1)[j]? = some n ∧
        p ∈ tickDots spec spec.height n}
      (forEach (fun _ n image => drawTick spec spec.height n image) 0 (spec.nodes.drop 1)) :=
    Paints.forEach (S := fun _ n => tickDots spec spec.height n) (color_idem stripTick)
      fun _ n _ => drawTick_colors spec spec.height n
  classical
  have hdrawn := hticks.shows.eq_ofPixels (directLine_sized h.toDrawable hblack)
  rw [renderStrip, u32_of_lt h.height_lt, ok_bind]
  show (stepLine spec spec.height >>= _) = _
  rw [hline, ok_bind]
  show (forEach (fun _ n image => drawTick spec spec.height n image) 0 (spec.nodes.drop 1)
    spec.directLine >>= _) = _
  rw [hdrawn, ok_bind, pure_eq, StripSpec.picture]
  congr 2
  refine Rgb24Frame.ofPixels_congr fun x hx y hy => ?_
  have hpixel : spec.directLine.pixel x y = spec.linePixel x y :=
    Rgb24Frame.pixel_ofPixels (fun x _ y _ => spec.length_linePixel x y) hx hy
  rw [hheight] at hy
  rw [Layer.solid, StripSpec.stripPixel, hpixel]
  exact if_congr (StripSpec.mem_tickDots_iff hy) rfl rfl

theorem StripSpec.length_stripPixel (spec : StripSpec) (x y : Nat) :
    (spec.stripPixel x y).length = 3 := by
  rw [StripSpec.stripPixel]
  split
  · rfl
  · exact spec.length_linePixel x y

theorem StripSpec.Renderable.inMemory_picture (h : spec.Renderable) :
    spec.picture.image.InMemory := by
  have hwell : spec.picture.image.WellFormed :=
    Rgb24Frame.wellFormed_ofPixels fun x _ y _ => spec.length_stripPixel x y
  refine ⟨hwell, ?_⟩
  rw [hwell]
  show 3 * spec.width.toNat * (UInt32.ofNat spec.height).toNat ≤ isizeMax
  rw [h.toDrawable.toNat_height]
  exact h.bytes

end Ticks

/-! ### The overlaid frame -/

/-- A native frame with what its overlay shows. -/
structure Overlaid (desc : FramebufferDesc) (opts : OverlayOptions)
    (frame : Bytes × FrameOverlayCtx) : Prop where
  length_eq : frame.1.length = desc.strideBytes.toNat * desc.height.toNat
  rate_fits : opts.nodeBanner = true →
    frame.2.framesSinceBoundary.toNat * frame.2.fpsDen.toNat < 2 ^ 64

def FramebufferDesc.overlaid (desc : FramebufferDesc) (s : UInt32) (spec : StripSpec)
    (opts : OverlayOptions) (frame : Bytes × FrameOverlayCtx) : Rgb24Frame :=
  let width := desc.width.toUInt32 * s
  let height := desc.height.toUInt32 * s
  Rgb24Frame.ofPixels width height fun x y =>
    overlayLayer width height s.toNat frame.2 opts (some spec.picture) (x, y)
      (desc.pixelFormat.expand (desc.word frame.1 (x / s.toNat) (y / s.toNat)))

section Overlaid

variable {desc : FramebufferDesc} {s : UInt32} {spec : StripSpec}

theorem overlaidFrame_eq (hdesc : desc.Displays) {lut : Lut}
    (hlut : Lut.forFormat desc.pixelFormat = .ok lut) (hs : 1 ≤ s.toNat)
    (hfits : desc.UpscaleFits s.toNat) (hspec : spec.Renderable) {opts : OverlayOptions}
    {frame : Bytes × FrameOverlayCtx} (hframe : Overlaid desc opts frame) :
    overlaidFrame lut desc s opts spec.picture frame.1 frame.2 =
      .ok (desc.overlaid s spec opts frame) := by
  have hstrip : ∀ t, some spec.picture = some t → t.image.InMemory := by
    rintro _ ⟨⟩
    exact hspec.inMemory_picture
  let up := (desc.picture frame.1).scaled s
  have hup : up.InMemory := inMemory_scaled_picture hdesc hfits
  have hshows : Shows (ε := Empty) up.width up.height _ _ :=
    compose_shows s hframe.rate_fits hstrip
  have hcomposed := hshows.eq_ofPixels hup.sized
  rw [max_eq_left hs] at hcomposed
  rw [overlaidFrame, convert_eq_picture hdesc hlut hframe.length_eq, unwrap_ok, ok_bind,
    scaleNn_eq hdesc.wellFormed_picture hs hfits.scaleFits, ok_bind]
  refine hcomposed.trans (congrArg Outcome.ok ?_)
  refine Rgb24Frame.ofPixels_congr fun x hx y hy => ?_
  rw [pixel_scaled_picture hdesc hfits hx hy]
  rfl

end Overlaid

/-- From native frames to overlaid ones. The render does not panic, and every
pixel of every frame is what the layers of the overlay, the strip with its line
and ticks among them, make of the colour of the native pixel below it. -/
theorem overlaidFrames_eq {desc : FramebufferDesc} (hdesc : desc.Displays) {s : UInt32}
    (hs : 1 ≤ s.toNat) (hfits : desc.UpscaleFits s.toNat) {spec : StripSpec}
    (hspec : spec.Renderable) {opts : OverlayOptions} {frames : List (Bytes × FrameOverlayCtx)}
    (hframes : ∀ frame ∈ frames, Overlaid desc opts frame) :
    overlaidFrames desc s spec opts frames = .ok (frames.map (desc.overlaid s spec opts)) := by
  obtain ⟨lut, hlut⟩ := exists_lut hdesc.sixteen
  rw [overlaidFrames, hlut, unwrap_ok, ok_bind, renderStrip_eq hspec, ok_bind]
  apply mapM_of_ok
  intro frame hframe
  exact overlaidFrame_eq hdesc hlut hs hfits hspec (hframes frame hframe)

def twoDesc : FramebufferDesc := ⟨0x10000, 2, 1, 4, .rgb555Le⟩

def twoFrame : Bytes × FrameOverlayCtx :=
  ([0xFF, 0x7F, 0x00, 0x7C], ⟨7, 1, 3, 1500000, 5, 1, 2, 9, 0, 60, 1⟩)

theorem overlaidFrames_eq_twoFrame :
    overlaidFrames twoDesc 4 sharedStart ⟨true, true, true, true⟩ [twoFrame] =
      .ok [twoDesc.overlaid 4 sharedStart ⟨true, true, true, true⟩ twoFrame] := by
  have hdesc : twoDesc.Displays := ⟨by simp [twoDesc], by decide⟩
  have hspec : sharedStart.Renderable := by
    refine ⟨?_, by decide⟩
    constructor <;> decide
  have hframes : ∀ frame ∈ [twoFrame], Overlaid twoDesc ⟨true, true, true, true⟩ frame := by
    rintro _ (_ | ⟨_, ⟨⟩⟩)
    exact ⟨rfl, by decide⟩
  exact overlaidFrames_eq hdesc (by decide) ⟨by decide, by decide, by decide⟩ hspec hframes

end ReplayRenderer
