import ReplayRenderer.Overlay.Font
import ReplayRenderer.Overlay.Strip

/-!
The overlay of a frame: strip, controller, counter and banner, one drawn over
the other. Each has an area of its own that follows from the sizes of frame and
text, may lie beside the frame in part or whole, and is never left.
-/

namespace ReplayRenderer

open Lib Lib.Outcome

/-! ### The controller -/

def buttonOrder : List Char := ['U', 'D', 'L', 'R', 'S', 's', 'Y', 'B', 'X', 'A', 'l', 'r']

structure HudButton where
  ch : Char
  col : Int
  row : Int
  deriving DecidableEq, Repr

def layout : List HudButton :=
  [⟨'l', 0, 0⟩, ⟨'r', 7, 0⟩, ⟨'U', 1, 1⟩, ⟨'X', 6, 1⟩, ⟨'L', 0, 2⟩, ⟨'R', 2, 2⟩,
    ⟨'s', 3, 2⟩, ⟨'S', 4, 2⟩, ⟨'Y', 5, 2⟩, ⟨'A', 7, 2⟩, ⟨'D', 1, 3⟩, ⟨'B', 6, 3⟩]

def gridCols : Int := 8
def gridRows : Int := 4

def pressedFill : Rgb := ⟨232, 210, 60⟩
def pressedGlyph : Rgb := ⟨20, 20, 20⟩
def releasedOutline : Rgb := ⟨70, 70, 70⟩
def releasedGlyph : Rgb := ⟨110, 110, 110⟩

section Source

variable {ε : Type}

def hudSize (s : Int) : Outcome ε (Int × Int) := do
  let w ← i64 (gridCols * 12 * s)
  let h ← i64 (gridRows * 12 * s)
  pure (w, h)

/-- `origin + index * 12 * s`. -/
def cellAt (origin index s : Int) : Outcome ε Int := do
  let cell ← i64 (index * 12)
  let cell ← i64 (cell * s)
  i64 (origin + cell)

def drawButton (x y : Int) (buttons : UInt32) (s : Int) (b : HudButton) (frame : Rgb24Frame) :
    Outcome ε Rgb24Frame := do
  let orderBit ← Outcome.expect (buttonOrder.findIdx? fun c => c = b.ch)
  let bx ← cellAt x b.col s
  let by_ ← cellAt y b.row s
  let side ← i64 (10 * s)
  let gx ← i64 (bx + s)
  let gy ← i64 (by_ + s)
  if buttons &&& (1 <<< UInt32.ofNat orderBit) ≠ 0 then
    let frame ← fillRect frame bx by_ side side pressedFill
    drawChar frame gx gy b.ch pressedGlyph s
  else
    let frame ← rectOutline frame bx by_ side side s releasedOutline
    drawChar frame gx gy b.ch releasedGlyph s

def drawHud (frame : Rgb24Frame) (x y : Int) (buttons : UInt32) (s : Int) :
    Outcome ε Rgb24Frame :=
  forEach (fun _ b frame => drawButton x y buttons s b frame) 0 layout frame

/-! ### Counter and banner -/

/-- Text on a translucent black box that leaves `pad` around it. -/
def drawBoxed (frame : Rgb24Frame) (x y tw pad : Int) (text : String) (color : Rgb)
    (alpha : UInt8) (s : Int) : Outcome ε Rgb24Frame := do
  let left ← i64 (x - pad)
  let top ← i64 (y - pad)
  let pads ← i64 (2 * pad)
  let w ← i64 (tw + pads)
  let glyphH ← i64 (8 * s)
  let h ← i64 (glyphH + pads)
  let frame ← fillRectAlpha frame left top w h ⟨0, 0, 0⟩ alpha
  let (frame, _) ← drawText frame x y text color s
  pure frame

/-- `{:03}` of a number. -/
def pad3 (n : Nat) : String := "".pushn '0' (3 - (toString n).length) ++ toString n

/-- `F<index> T<seconds>.<millis>s`. -/
def counterText (frameIndex vns : UInt64) : String :=
  let totalMs := vns.toNat / 1000000
  "F" ++ toString frameIndex.toNat ++ " T" ++ toString (totalMs / 1000) ++ "." ++
    pad3 (totalMs % 1000) ++ "s"

def drawCounter (frame : Rgb24Frame) (frameIndex vns : UInt64) (s : Int) :
    Outcome ε Rgb24Frame := do
  let text := counterText frameIndex vns
  let tw ← textWidth text s
  let pad ← i64 (2 * s)
  let x ← i64 (frame.width.toNat - tw)
  let pads ← i64 (3 * pad)
  let x ← i64 (x - pads)
  let y ← i64 (2 * s)
  drawBoxed frame x y tw pad text ⟨255, 255, 255⟩ 128 s

/-- One second of frames, in the fps rational. -/
def bannerVisible (framesSinceBoundary : UInt64) (fpsNum fpsDen : UInt32) : Outcome ε Bool := do
  let scaled ← u64Mul framesSinceBoundary.toNat fpsDen.toNat
  pure (scaled < fpsNum.toNat)

def bannerText (nodeOrd nodeTotal : UInt32) (nodeId : UInt64) : String :=
  "node " ++ toString nodeOrd.toNat ++ "/" ++ toString nodeTotal.toNat ++ " - " ++
    toString nodeId.toNat

def drawBanner (frame : Rgb24Frame) (nodeOrd nodeTotal : UInt32) (nodeId : UInt64) (s : Int) :
    Outcome ε Rgb24Frame := do
  let text := bannerText nodeOrd nodeTotal nodeId
  let tw ← textWidth text s
  let pad ← i64 (3 * s)
  let x ← i64 (frame.width.toNat - tw)
  let x ← i64 (x.tdiv 2)
  let y ← i64 (14 * s)
  drawBoxed frame x y tw pad text ⟨255, 230, 120⟩ 160 s

/-! ### The composition -/

structure OverlayOptions where
  frameCounter : Bool
  inputHud : Bool
  scoreTimeline : Bool
  nodeBanner : Bool
  deriving DecidableEq, Repr

structure FrameOverlayCtx where
  frameIndex : UInt64
  /-- Relative to the render range: the position of the playhead. -/
  frameOrd : UInt64
  totalFrames : UInt64
  vns : UInt64
  heldButtons : UInt32
  nodeOrd : UInt32
  nodeTotal : UInt32
  nodeId : UInt64
  framesSinceBoundary : UInt64
  fpsNum : UInt32
  fpsDen : UInt32
  deriving DecidableEq, Repr

def shownStrip (opts : OverlayOptions) (strip : Option StripTexture) : Option StripTexture :=
  if opts.scoreTimeline then strip else none

def composeStrip (ctx : FrameOverlayCtx) (shown : Option StripTexture) (frame : Rgb24Frame) :
    Outcome ε Rgb24Frame :=
  match shown with
  | some strip => blitStrip frame strip ctx.frameOrd ctx.totalFrames
  | none => pure frame

def bottomReserved (shown : Option StripTexture) : Int :=
  match shown with
  | some strip => strip.image.height.toNat
  | none => 0

def composeHud (s : Int) (ctx : FrameOverlayCtx) (reserved : Int) (frame : Rgb24Frame) :
    Outcome ε Rgb24Frame := do
  let (_, hudH) ← hudSize s
  let x ← i64 (4 * s)
  let y ← i64 (frame.height.toNat - reserved)
  let y ← i64 (y - hudH)
  let y ← i64 (y - x)
  drawHud frame x y ctx.heldButtons s

def composeBanner (s : Int) (ctx : FrameOverlayCtx) (frame : Rgb24Frame) :
    Outcome ε Rgb24Frame := do
  let visible ← bannerVisible ctx.framesSinceBoundary ctx.fpsNum ctx.fpsDen
  if visible then drawBanner frame ctx.nodeOrd ctx.nodeTotal ctx.nodeId s else pure frame

/-- `if enabled { op(frame) }`. -/
def whenSet (enabled : Bool) (op : Rgb24Frame → Outcome ε Rgb24Frame) (frame : Rgb24Frame) :
    Outcome ε Rgb24Frame :=
  if enabled then op frame else pure frame

def compose (frame : Rgb24Frame) (s : UInt32) (ctx : FrameOverlayCtx) (opts : OverlayOptions)
    (strip : Option StripTexture) : Outcome ε Rgb24Frame := do
  let s : Int := (max s.toNat 1 : Nat)
  let shown := shownStrip opts strip
  let frame ← composeStrip ctx shown frame
  let frame ← whenSet opts.inputHud (composeHud s ctx (bottomReserved shown)) frame
  let frame ← whenSet opts.frameCounter
    (fun frame => drawCounter frame ctx.frameIndex ctx.vns s) frame
  whenSet opts.nodeBanner (composeBanner s ctx) frame

end Source

/-! ### The area of each element -/

def stripArea (height : UInt32) (strip : StripTexture) : Set (Int × Int) :=
  {p | (height.toNat : Int) - strip.image.height.toNat ≤ p.2}

/-- The grid of the controller, above the rows kept for the strip. -/
def hudArea (height : UInt32) (reserved s : Int) : Set (Int × Int) :=
  rect (4 * s) (height.toNat - reserved - 48 * s - 4 * s) (96 * s) (48 * s)

def counterArea (width : UInt32) (text : String) (s : Int) : Set (Int × Int) :=
  rect (width.toNat - 8 * s * text.length - 3 * (2 * s) - 2 * s) (2 * s - 2 * s)
    (8 * s * text.length + 2 * (2 * s)) (8 * s + 2 * (2 * s))

def bannerArea (width : UInt32) (text : String) (s : Int) : Set (Int × Int) :=
  rect ((width.toNat - 8 * s * text.length).tdiv 2 - 3 * s) (14 * s - 3 * s)
    (8 * s * text.length + 2 * (3 * s)) (8 * s + 2 * (3 * s))

/-- What the enabled elements cover. -/
def overlayArea (width height : UInt32) (s : Int) (ctx : FrameOverlayCtx) (opts : OverlayOptions)
    (strip : Option StripTexture) : Set (Int × Int) :=
  {p | (∃ shown, shownStrip opts strip = some shown ∧ p ∈ stripArea height shown) ∨
    (opts.inputHud = true ∧ p ∈ hudArea height (bottomReserved (shownStrip opts strip)) s) ∨
    (opts.frameCounter = true ∧ p ∈ counterArea width (counterText ctx.frameIndex ctx.vns) s) ∨
    (opts.nodeBanner = true ∧ ctx.framesSinceBoundary.toNat * ctx.fpsDen.toNat < ctx.fpsNum.toNat ∧
      p ∈ bannerArea width (bannerText ctx.nodeOrd ctx.nodeTotal ctx.nodeId) s)}

/-! ### Lengths of the texts -/

theorem length_pad3 {n : Nat} (hn : n < 1000) : (pad3 n).length = 3 := by
  have hdigits : (toString n).length ≤ 3 := length_toString_le (by decide) hn
  rw [pad3, String.length_append, String.length_pushn]
  show 0 + (3 - (toString n).length) + (toString n).length = 3
  omega

theorem length_counterText (frameIndex vns : UInt64) :
    (counterText frameIndex vns).length ≤ 64 := by
  have hindex := length_toString_u64 frameIndex
  have hseconds : (toString (vns.toNat / 1000000 / 1000)).length ≤ 20 :=
    length_toString_le (by decide) (by have := vns.toNat_lt; omega)
  have hmillis := length_pad3 (Nat.mod_lt (vns.toNat / 1000000) (show 0 < 1000 by decide))
  simp only [counterText, String.length_append, hmillis]
  show 1 + _ + 2 + _ + 1 + 3 + 1 ≤ 64
  omega

theorem length_bannerText (nodeOrd nodeTotal : UInt32) (nodeId : UInt64) :
    (bannerText nodeOrd nodeTotal nodeId).length ≤ 64 := by
  have hord := length_toString_u32 nodeOrd
  have htotal := length_toString_u32 nodeTotal
  have hid := length_toString_u64 nodeId
  simp only [bannerText, String.length_append]
  show 5 + _ + 1 + _ + 3 + _ ≤ 64
  omega

/-! ### Each element stays in its area -/

theorem layout_spec {b : HudButton} (hb : b ∈ layout) :
    (∃ orderBit, buttonOrder.findIdx? (fun c => c = b.ch) = some orderBit) ∧
      (0 ≤ b.col ∧ b.col ≤ 7) ∧ 0 ≤ b.row ∧ b.row ≤ 3 := by
  have hall : ∀ b ∈ layout, (buttonOrder.findIdx? fun c => c = b.ch).isSome = true ∧
      (0 ≤ b.col ∧ b.col ≤ 7) ∧ 0 ≤ b.row ∧ b.row ≤ 3 := by decide
  obtain ⟨hbit, hgrid⟩ := hall b hb
  exact ⟨Option.isSome_iff_exists.mp hbit, hgrid⟩

/-- Halving rounds towards zero. -/
theorem tdiv_two_bounds {n : Int} (hn : -2 ^ 43 ≤ n ∧ n ≤ 2 ^ 43) :
    -2 ^ 43 ≤ n.tdiv 2 ∧ n.tdiv 2 ≤ 2 ^ 43 := by
  rw [Int.tdiv_eq_ediv]
  split
  · omega
  · rw [Int.sign_eq_one_of_pos (by decide)]
    omega

section Elements

variable {ε : Type} {width height : UInt32} {s : Int} (hs : 1 ≤ s ∧ s ≤ 2 ^ 32)

include hs

theorem cellAt_eq {origin index : Int} (horigin : -2 ^ 40 ≤ origin ∧ origin ≤ 2 ^ 40)
    (hindex : 0 ≤ index ∧ index ≤ 7) :
    (cellAt origin index s : Outcome ε Int) = .ok (origin + index * 12 * s) ∧
      0 ≤ index * 12 * s ∧ index * 12 * s ≤ 84 * s := by
  have hnonneg : 0 ≤ index * 12 * s := mul_nonneg (by omega) (by omega)
  have hle : index * 12 * s ≤ 84 * s := mul_le_mul_of_nonneg_right (by omega) (by omega)
  refine ⟨?_, hnonneg, hle⟩
  rw [cellAt, i64_of_bounds (by omega) (by omega), ok_bind, i64_of_bounds (by omega) (by omega),
    ok_bind, i64_of_bounds (by omega) (by omega)]

theorem drawButton_marks {x y : Int} (hx : -2 ^ 40 ≤ x ∧ x ≤ 2 ^ 40)
    (hy : -2 ^ 40 ≤ y ∧ y ≤ 2 ^ 40) (buttons : UInt32) {b : HudButton} (hb : b ∈ layout) :
    Marks (ε := ε) width height (rect x y (96 * s) (48 * s)) (drawButton x y buttons s b) := by
  obtain ⟨⟨orderBit, hbit⟩, hcol, hrow⟩ := layout_spec hb
  obtain ⟨hbx, hbx0, hbx7⟩ := cellAt_eq (ε := ε) hs hx hcol
  obtain ⟨hby, hby0, -⟩ := cellAt_eq (ε := ε) hs hy (show 0 ≤ b.row ∧ b.row ≤ 7 by omega)
  have hby3 : b.row * 12 * s ≤ 36 * s := mul_le_mul_of_nonneg_right (by omega) (by omega)
  refine .after (fun _ _ => hbit.symm ▸ expect_some orderBit) ?_
  refine .after (fun _ _ => hbx) (.after (fun _ _ => hby) ?_)
  refine .after (fun _ _ => i64_of_bounds (by omega) (by omega)) ?_
  refine .after (fun _ _ => i64_of_bounds (by omega) (by omega)) ?_
  refine .after (fun _ _ => i64_of_bounds (by omega) (by omega)) ?_
  have hglyph : ∀ color, Marks (ε := ε) width height (rect x y (96 * s) (48 * s)) fun frame =>
      drawChar frame (x + b.col * 12 * s + s) (y + b.row * 12 * s + s) b.ch color s := fun color =>
    (drawChar_marks (by omega) (by omega) (by omega) color b.ch).mono
      (rect_subset (by omega) (by omega) (by omega) (by omega))
  have hcell : rect (x + b.col * 12 * s) (y + b.row * 12 * s) (10 * s) (10 * s) ⊆
      rect x y (96 * s) (48 * s) := rect_subset (by omega) (by omega) (by omega) (by omega)
  refine .ite (fun _ => ?_) fun _ => ?_
  · exact ((fillRect_colors _ _ _ _ pressedFill (by omega) (by omega)).touches hcell).seq
      (hglyph pressedGlyph)
  · exact ((rectOutline_marks _ _ _ _ _ releasedOutline (by omega) (by omega) (by omega) (by omega)
      (by omega)).mono hcell).seq (hglyph releasedGlyph)

theorem drawHud_marks {x y : Int} (hx : -2 ^ 40 ≤ x ∧ x ≤ 2 ^ 40)
    (hy : -2 ^ 40 ≤ y ∧ y ≤ 2 ^ 40) (buttons : UInt32) :
    Marks (ε := ε) width height (rect x y (96 * s) (48 * s)) fun frame =>
      drawHud frame x y buttons s :=
  Touches.forEach fun _ _ hb => drawButton_marks hs hx hy buttons (List.mem_of_getElem? hb)

theorem composeHud_marks (ctx : FrameOverlayCtx) {reserved : Int}
    (hreserved : 0 ≤ reserved ∧ reserved < 2 ^ 32) :
    Marks (ε := ε) width height (hudArea height reserved s) (composeHud s ctx reserved) := by
  intro f hf
  have hheight := height.toNat_lt
  obtain ⟨f', hdraw, hf', heq⟩ := drawHud_marks (ε := ε) hs (x := 4 * s)
    (y := height.toNat - reserved - 48 * s - 4 * s) (by omega) (by omega) ctx.heldButtons f hf
  refine ⟨f', ?_, hf', heq⟩
  have hsize : (hudSize s : Outcome ε (Int × Int)) = .ok (96 * s, 48 * s) := by
    unfold hudSize gridCols gridRows
    rw [i64_of_bounds (by omega) (by omega), ok_bind, i64_of_bounds (by omega) (by omega), ok_bind]
    rfl
  rw [composeHud, hsize, ok_bind]
  simp only
  rw [hf.height_eq, i64_of_bounds (by omega) (by omega), ok_bind,
    i64_of_bounds (by omega) (by omega), ok_bind, i64_of_bounds (by omega) (by omega), ok_bind,
    i64_of_bounds (by omega) (by omega), ok_bind]
  exact hdraw

theorem textWidth_bounds {text : String} (hlen : text.length ≤ 64) :
    0 ≤ 8 * s * (text.length : Int) ∧ 8 * s * (text.length : Int) ≤ 2 ^ 42 ∧
      (textWidth text s : Outcome ε Int) = .ok (8 * s * text.length) := by
  have hnonneg : 0 ≤ 8 * s * (text.length : Int) := mul_nonneg (by omega) (by omega)
  have hle : 8 * s * (text.length : Int) ≤ 8 * 2 ^ 32 * 64 :=
    mul_le_mul (by omega) (by omega) (by omega) (by omega)
  exact ⟨hnonneg, by omega, textWidth_eq (by omega) (by omega)⟩

theorem drawBoxed_marks (x y pad : Int) {text : String} (color : Rgb) (alpha : UInt8)
    (hx : -2 ^ 50 ≤ x ∧ x ≤ 2 ^ 50) (hy : 0 ≤ y ∧ y ≤ 2 ^ 40) (hpad : 0 ≤ pad ∧ pad ≤ 2 ^ 40)
    (hlen : text.length ≤ 64) :
    Marks (ε := ε) width height
      (rect (x - pad) (y - pad) (8 * s * text.length + 2 * pad) (8 * s + 2 * pad)) fun frame =>
        drawBoxed frame x y (8 * s * text.length) pad text color alpha s := by
  obtain ⟨htw0, htw, -⟩ := textWidth_bounds (ε := ε) hs hlen
  refine .after (fun _ _ => i64_of_bounds (by omega) (by omega)) ?_
  refine .after (fun _ _ => i64_of_bounds (by omega) (by omega)) ?_
  refine .after (fun _ _ => i64_of_bounds (by omega) (by omega)) ?_
  refine .after (fun _ _ => i64_of_bounds (by omega) (by omega)) ?_
  refine .after (fun _ _ => i64_of_bounds (by omega) (by omega)) ?_
  refine .after (fun _ _ => i64_of_bounds (by omega) (by omega)) ?_
  refine (fillRectAlpha_marks _ _ _ _ _ alpha (by omega) (by omega)).seq ?_
  exact (drawText_marks color text (by omega) (by omega) (by omega) (by omega) (by omega)).mono
    (rect_subset (by omega) (by omega) (by omega) (by omega))

theorem drawCounter_marks (frameIndex vns : UInt64) :
    Marks (ε := ε) width height (counterArea width (counterText frameIndex vns) s) fun frame =>
      drawCounter frame frameIndex vns s := by
  intro f hf
  have hlen := length_counterText frameIndex vns
  have hwidth := width.toNat_lt
  obtain ⟨htw0, htw, htext⟩ := textWidth_bounds (ε := ε) hs hlen
  obtain ⟨f', hdraw, hf', heq⟩ := drawBoxed_marks (ε := ε) hs
    (width.toNat - 8 * s * (counterText frameIndex vns).length - 3 * (2 * s)) (2 * s) (2 * s)
    ⟨255, 255, 255⟩ 128 (by omega) (by omega) (by omega) hlen f hf
  refine ⟨f', ?_, hf', heq⟩
  simp only [drawCounter]
  rw [htext, ok_bind, hf.width_eq, i64_of_bounds (n := 2 * s) (by omega) (by omega), ok_bind,
    i64_of_bounds (by omega) (by omega), ok_bind, i64_of_bounds (by omega) (by omega), ok_bind,
    i64_of_bounds (by omega) (by omega), ok_bind, ok_bind]
  exact hdraw

theorem drawBanner_marks (nodeOrd nodeTotal : UInt32) (nodeId : UInt64) :
    Marks (ε := ε) width height (bannerArea width (bannerText nodeOrd nodeTotal nodeId) s)
      fun frame => drawBanner frame nodeOrd nodeTotal nodeId s := by
  intro f hf
  have hlen := length_bannerText nodeOrd nodeTotal nodeId
  have hwidth := width.toNat_lt
  obtain ⟨htw0, htw, htext⟩ := textWidth_bounds (ε := ε) hs hlen
  have hhalf := tdiv_two_bounds
    (n := width.toNat - 8 * s * (bannerText nodeOrd nodeTotal nodeId).length) (by omega)
  obtain ⟨f', hdraw, hf', heq⟩ := drawBoxed_marks (ε := ε) hs
    ((width.toNat - 8 * s * (bannerText nodeOrd nodeTotal nodeId).length).tdiv 2) (14 * s) (3 * s)
    ⟨255, 230, 120⟩ 160 (by omega) (by omega) (by omega) hlen f hf
  refine ⟨f', ?_, hf', heq⟩
  simp only [drawBanner]
  rw [htext, ok_bind, hf.width_eq, i64_of_bounds (by omega) (by omega), ok_bind,
    i64_of_bounds (by omega) (by omega), ok_bind, i64_of_bounds (by omega) (by omega), ok_bind,
    i64_of_bounds (by omega) (by omega), ok_bind]
  exact hdraw

theorem composeBanner_marks {ctx : FrameOverlayCtx}
    (hfits : ctx.framesSinceBoundary.toNat * ctx.fpsDen.toNat < 2 ^ 64) :
    Marks (ε := ε) width height
      {p | ctx.framesSinceBoundary.toNat * ctx.fpsDen.toNat < ctx.fpsNum.toNat ∧
        p ∈ bannerArea width (bannerText ctx.nodeOrd ctx.nodeTotal ctx.nodeId) s}
      (composeBanner s ctx) := by
  have hvisible : (bannerVisible ctx.framesSinceBoundary ctx.fpsNum ctx.fpsDen : Outcome ε Bool) =
      .ok (ctx.framesSinceBoundary.toNat * ctx.fpsDen.toNat < ctx.fpsNum.toNat) := by
    rw [bannerVisible, u64Mul_of_lt hfits, ok_bind, pure_eq]
  refine .after (fun _ _ => hvisible) (.ite (fun hshown => ?_) fun _ => .nothing)
  exact (drawBanner_marks hs ctx.nodeOrd ctx.nodeTotal ctx.nodeId).mono fun p hp =>
    ⟨of_decide_eq_true hshown, hp⟩

end Elements

section Composition

variable {ε : Type} {width height : UInt32}

theorem whenSet_marks {enabled : Bool} {S : Set (Int × Int)}
    {op : Rgb24Frame → Outcome ε Rgb24Frame} (h : Marks width height S op) :
    Marks width height {p | enabled = true ∧ p ∈ S} (whenSet enabled op) :=
  .ite (fun hset => h.mono fun _ hp => ⟨hset, hp⟩) fun _ => .nothing

variable {opts : OverlayOptions} {strip : Option StripTexture}
  (hstrip : ∀ t, strip = some t → t.image.InMemory)

include hstrip

theorem composeStrip_marks (ctx : FrameOverlayCtx) :
    Marks (ε := ε) width height
      {p | ∃ shown, shownStrip opts strip = some shown ∧ p ∈ stripArea height shown}
      (composeStrip ctx (shownStrip opts strip)) := by
  cases hshown : shownStrip opts strip with
  | none => exact .nothing
  | some shown =>
      have hgiven : strip = some shown := by
        unfold shownStrip at hshown
        split at hshown
        · exact hshown
        · cases hshown
      exact (blitStrip_marks (hstrip shown hgiven) ctx.frameOrd ctx.totalFrames).mono fun p hp =>
        ⟨shown, rfl, hp⟩

theorem compose_marks {s : UInt32} {ctx : FrameOverlayCtx}
    (hfits : ctx.framesSinceBoundary.toNat * ctx.fpsDen.toNat < 2 ^ 64) :
    Marks (ε := ε) width height (overlayArea width height (max s.toNat 1 : Nat) ctx opts strip)
      fun frame => compose frame s ctx opts strip := by
  have hscale : 1 ≤ ((max s.toNat 1 : Nat) : Int) ∧ ((max s.toNat 1 : Nat) : Int) ≤ 2 ^ 32 := by
    have := s.toNat_lt
    omega
  have hreserved : 0 ≤ bottomReserved (shownStrip opts strip) ∧
      bottomReserved (shownStrip opts strip) < 2 ^ 32 := by
    unfold bottomReserved
    split
    · next shown _ =>
        have := shown.image.height.toNat_lt
        omega
    · omega
  exact (composeStrip_marks hstrip ctx).union
    ((whenSet_marks (composeHud_marks hscale ctx hreserved)).union
      ((whenSet_marks (drawCounter_marks hscale ctx.frameIndex ctx.vns)).union
        (whenSet_marks (composeBanner_marks hscale hfits))))

end Composition

structure Rgb24Frame.SameOutside (area : Set (Int × Int)) (frame frame' : Rgb24Frame) : Prop where
  width_eq : frame'.width = frame.width
  height_eq : frame'.height = frame.height
  length_eq : frame'.pixels.length = frame.pixels.length
  pixel_eq : ∀ x < frame.width.toNat, ∀ y < frame.height.toNat, ((x : Int), (y : Int)) ∉ area →
    frame'.pixel x y = frame.pixel x y

/-- Composition returns, keeps the frame's sizes, and changes no pixel outside
the areas of the enabled elements. -/
theorem compose_sameOutside {frame : Rgb24Frame} (hframe : frame.InMemory) (s : UInt32)
    {ctx : FrameOverlayCtx} (hfits : ctx.framesSinceBoundary.toNat * ctx.fpsDen.toNat < 2 ^ 64)
    (opts : OverlayOptions) {strip : Option StripTexture}
    (hstrip : ∀ t, strip = some t → t.image.InMemory) :
    ∃ frame', (compose frame s ctx opts strip : Outcome Empty Rgb24Frame) = .ok frame' ∧
      frame.SameOutside
        (overlayArea frame.width frame.height (max s.toNat 1 : Nat) ctx opts strip) frame' := by
  have hsized := hframe.sized
  obtain ⟨frame', hcompose, hsized', heq⟩ := compose_marks hstrip hfits frame hsized
  refine ⟨frame', hcompose, hsized'.width_eq, hsized'.height_eq, ?_, fun x hx y hy hout => ?_⟩
  · rw [hsized'.length_eq, hsized.length_eq]
  · exact Rgb24Frame.pixel_eq_of_pixelAt hx hy (hsized'.width_eq.symm ▸ hx)
      (hsized'.height_eq.symm ▸ hy) (heq hout)

def columns : Rgb24Frame := ⟨4, 30, (List.replicate 30 [9, 0, 0, 0, 9, 0, 0, 0, 9, 9, 9, 9]).flatten⟩

def columnsCtx : FrameOverlayCtx := ⟨7, 1, 3, 1500000, 5, 1, 2, 9, 0, 60, 1⟩

/-- A strip of two rows under a banner, and no controller: the top rows are
outside, and stay. -/
theorem compose_sameOutside_columns :
    ∃ frame', (compose columns 0 columnsCtx ⟨true, false, true, true⟩ (some ⟨⟨3, 2, zeros 18⟩⟩) :
        Outcome Empty Rgb24Frame) = .ok frame' ∧
      columns.SameOutside (overlayArea 4 30 (max (0 : UInt32).toNat 1 : Nat) columnsCtx
        ⟨true, false, true, true⟩ (some ⟨⟨3, 2, zeros 18⟩⟩)) frame' ∧
      frame'.pixel 1 5 = columns.pixel 1 5 := by
  have hlen : columns.pixels.length = 360 := by decide +kernel
  have hframe : columns.InMemory := ⟨hlen, by rw [hlen]; decide⟩
  have hstrip : ∀ t, some (StripTexture.mk ⟨3, 2, zeros 18⟩) = some t → t.image.InMemory := by
    rintro _ ⟨⟩
    exact ⟨rfl, by decide⟩
  obtain ⟨frame', hcompose, hsame⟩ := @compose_sameOutside columns hframe 0 columnsCtx (by decide)
    ⟨true, false, true, true⟩ _ hstrip
  refine ⟨frame', hcompose, hsame, hsame.pixel_eq 1 (by decide) 5 (by decide) ?_⟩
  rintro (⟨shown, hshown, hp⟩ | ⟨hhud, -⟩ | ⟨-, hp⟩ | ⟨-, -, hp⟩)
  · obtain rfl := Option.some.inj hshown
    revert hp
    simp [stripArea, columns]
  · exact absurd hhud Bool.false_ne_true
  · -- the box ends left of the frame
    have hleft := hp.1.2
    simp only [columns, UInt32.reduceToNat] at hleft
    omega
  · revert hp
    simp [bannerArea, rect]

end ReplayRenderer
