import ReplayRenderer.Lib.Layers
import ReplayRenderer.Overlay.Compose

/-!
The picture of the overlay: what every enabled element makes of the pixel at
each point, said of the point and not of the loops that draw it. A glyph is the
squares of its set bits, a text its glyphs side by side, a box a tint with the
text on it, and the overlay its elements one over the other. Drawing over the
bytes of a frame renders that picture, pixel by pixel.
-/

namespace ReplayRenderer

open Lib Lib.Outcome

abbrev Layer := Int × Int → Bytes → Bytes

instance (x y w h : Int) : DecidablePred (· ∈ rect x y w h) :=
  fun p => inferInstanceAs (Decidable ((x ≤ p.1 ∧ p.1 < x + w) ∧ y ≤ p.2 ∧ p.2 < y + h))

def Layer.solid (S : Set (Int × Int)) [DecidablePred (· ∈ S)] (color : Rgb) : Layer :=
  fun p px => if p ∈ S then color.bytes else px

def blendOver (color : Rgb) (alpha : UInt8) (px : Bytes) : Bytes :=
  List.zipWith (fun fg bg => blend fg bg alpha) color.bytes px

def Layer.tinted (S : Set (Int × Int)) [DecidablePred (· ∈ S)] (color : Rgb) (alpha : UInt8) :
    Layer :=
  fun p px => if p ∈ S then blendOver color alpha px else px

def Layer.clear : Layer := fun _ px => px

def Layer.over (top bottom : Layer) : Layer := fun p px => top p (bottom p px)

def Layer.when (shown : Bool) (layer : Layer) : Layer := if shown then layer else Layer.clear

theorem Layer.when_and (shown shown' : Bool) (layer : Layer) :
    Layer.when (shown && shown') layer = (layer.when shown').when shown := by
  cases shown <;> rfl

/-! ### Glyphs and texts -/

def glyphRows (c : Char) : Bytes :=
  (fontPsf.drop (fontHeader + (if c.toNat < 128 then c.toNat else 0) * glyphBytes)).take glyphBytes

/-- Whether a bit of a glyph is set, the leftmost of a row being its highest. -/
def glyphBit (c : Char) (row col : Fin 8) : Bool :=
  ((glyphRows c).getD row 0).toNat.testBit (7 - col)

def glyphDots (c : Char) (x y s : Int) : Set (Int × Int) :=
  {p | ∃ row col : Fin 8, glyphBit c row col = true ∧ p ∈ rect (x + col * s) (y + row * s) s s}

instance (c : Char) (x y s : Int) : DecidablePred (· ∈ glyphDots c x y s) :=
  fun p => inferInstanceAs (Decidable (∃ row col : Fin 8,
    glyphBit c row col = true ∧ p ∈ rect (x + col * s) (y + row * s) s s))

def charDots (cs : List Char) (x y s : Int) : Set (Int × Int) :=
  {p | ∃ k : Fin cs.length, p ∈ glyphDots cs[k] (x + 8 * s * k) y s}

instance (cs : List Char) (x y s : Int) : DecidablePred (· ∈ charDots cs x y s) :=
  fun p => inferInstanceAs (Decidable (∃ k : Fin cs.length,
    p ∈ glyphDots cs[k] (x + 8 * s * k) y s))

/-! ### The elements -/

/-- A rectangle without what is `t` inside it. -/
def outlineSet (x y w h t : Int) : Set (Int × Int) :=
  {p | p ∈ rect x y w h ∧ p ∉ rect (x + t) (y + t) (w - 2 * t) (h - 2 * t)}

instance (x y w h t : Int) : DecidablePred (· ∈ outlineSet x y w h t) :=
  fun p => inferInstanceAs (Decidable (p ∈ rect x y w h ∧
    p ∉ rect (x + t) (y + t) (w - 2 * t) (h - 2 * t)))

/-- Whether the mask holds the button: its bit is its place in the order. -/
def isPressed (buttons : UInt32) (ch : Char) : Bool :=
  buttons.toNat.testBit (buttonOrder.idxOf ch)

def buttonLayer (x y : Int) (buttons : UInt32) (s : Int) (b : HudButton) : Layer :=
  let bx := x + b.col * 12 * s
  let by_ := y + b.row * 12 * s
  if isPressed buttons b.ch then
    (Layer.solid (glyphDots b.ch (bx + s) (by_ + s) s) pressedGlyph).over
      (Layer.solid (rect bx by_ (10 * s) (10 * s)) pressedFill)
  else
    (Layer.solid (glyphDots b.ch (bx + s) (by_ + s) s) releasedGlyph).over
      (Layer.solid (outlineSet bx by_ (10 * s) (10 * s) s) releasedOutline)

def hudLayer (x y : Int) (buttons : UInt32) (s : Int) : Layer :=
  fun p px => layout.foldl (fun px b => buttonLayer x y buttons s b p px) px

def boxedLayer (x y pad : Int) (text : String) (color : Rgb) (alpha : UInt8) (s : Int) : Layer :=
  (Layer.solid (charDots text.toList x y s) color).over
    (Layer.tinted (rect (x - pad) (y - pad) (8 * s * text.length + 2 * pad) (8 * s + 2 * pad))
      ⟨0, 0, 0⟩ alpha)

def counterLayer (width : UInt32) (frameIndex vns : UInt64) (s : Int) : Layer :=
  let text := counterText frameIndex vns
  boxedLayer (width.toNat - 8 * s * text.length - 3 * (2 * s)) (2 * s) (2 * s) text
    ⟨255, 255, 255⟩ 128 s

def bannerLayer (width nodeOrd nodeTotal : UInt32) (nodeId : UInt64) (s : Int) : Layer :=
  let text := bannerText nodeOrd nodeTotal nodeId
  boxedLayer ((width.toNat - 8 * s * text.length).tdiv 2) (14 * s) (3 * s) text
    ⟨255, 230, 120⟩ 160 s

def Layer.image (image : Rgb24Frame) (x y w h : Int) : Layer :=
  fun p px => if p ∈ rect x y w h then image.pixel (p.1 - x).toNat (p.2 - y).toNat else px

/-- The strip at the bottom, cut to the frame, and the playhead. -/
def stripLayer (width height : UInt32) (ctx : FrameOverlayCtx) (strip : StripTexture) : Layer :=
  let y0 : Nat := height.toNat - strip.image.height.toNat
  let rows := min strip.image.height.toNat height.toNat
  (Layer.solid (rect (frameToX ctx.frameOrd (max ctx.totalFrames 1) width) y0 1 rows)
      playhead).over
    (Layer.image strip.image 0 y0 (min strip.image.width.toNat width.toNat : Nat) rows)

def shownLayer (width height : UInt32) (ctx : FrameOverlayCtx) : Option StripTexture → Layer
  | some strip => stripLayer width height ctx strip
  | none => Layer.clear

/-- The elements that are enabled, in the order they are drawn. -/
def overlayLayer (width height : UInt32) (s : Int) (ctx : FrameOverlayCtx) (opts : OverlayOptions)
    (strip : Option StripTexture) : Layer :=
  let shown := shownStrip opts strip
  let hudY := height.toNat - bottomReserved shown - 48 * s - 4 * s
  let bannerShown := opts.nodeBanner &&
    ctx.framesSinceBoundary.toNat * ctx.fpsDen.toNat < ctx.fpsNum.toNat
  (Layer.when bannerShown (bannerLayer width ctx.nodeOrd ctx.nodeTotal ctx.nodeId s)).over
    ((Layer.when opts.frameCounter (counterLayer width ctx.frameIndex ctx.vns s)).over
      ((Layer.when opts.inputHud (hudLayer (4 * s) hudY ctx.heldButtons s)).over
        (shownLayer width height ctx shown)))

/-! ### Operations that show a layer -/

abbrev Shows {ε : Type} (width height : UInt32) (layer : Layer)
    (op : Rgb24Frame → Outcome ε Rgb24Frame) : Prop :=
  Renders (Rgb24Frame.Sized width height) Rgb24Frame.pixelAt (fun p => Option.map (layer p)) op

section Shows

variable {ε : Type} {width height : UInt32} {layer layer' : Layer}
  {op op' : Rgb24Frame → Outcome ε Rgb24Frame}

theorem Shows.over (h : Shows width height layer op) (h' : Shows width height layer' op') :
    Shows width height (layer'.over layer) fun frame => op frame >>= op' :=
  (h.seq h').congr fun _ _ => Option.map_map ..

theorem Shows.clear :
    Shows width height Layer.clear (Outcome.ok : Rgb24Frame → Outcome ε Rgb24Frame) :=
  Renders.nothing.congr fun _ _ => Option.map_id'.symm ▸ rfl

theorem Shows.when (shown : Bool) (h : Shows width height layer op) :
    Shows width height (layer.when shown) fun frame => if shown then op frame else pure frame := by
  cases shown with
  | false => exact Shows.clear
  | true => exact h

theorem Colors.shows {color : Rgb} {S : Set (Int × Int)} [DecidablePred (· ∈ S)]
    (h : Colors width height color S op) : Shows width height (Layer.solid S color) op := by
  refine h.renders.congr fun p px => ?_
  by_cases hp : p ∈ S <;> cases px <;> simp [Layer.solid, hp]

/-- What an operation that shows a layer makes of a frame. -/
theorem Shows.eq_ofPixels (h : Shows width height layer op) {frame : Rgb24Frame}
    (hframe : frame.Sized width height) :
    op frame =
      .ok (Rgb24Frame.ofPixels width height fun x y => layer (x, y) (frame.pixel x y)) := by
  obtain ⟨frame', hop, hsized, hpixel⟩ := h frame hframe
  rw [hop, Rgb24Frame.eq_ofPixels hsized.wellFormed, hsized.width_eq, hsized.height_eq]
  congr 1
  refine Rgb24Frame.ofPixels_congr fun x hx y hy => ?_
  have hpx := hpixel (x, y)
  rw [Rgb24Frame.pixelAt_natCast (hsized.width_eq.symm ▸ hx) (hsized.height_eq.symm ▸ hy),
    Rgb24Frame.pixelAt_natCast (hframe.width_eq.symm ▸ hx) (hframe.height_eq.symm ▸ hy)] at hpx
  exact Option.some.inj hpx

abbrev Tints {ε : Type} (width height : UInt32) (color : Rgb) (alpha : UInt8) :
    Set (Int × Int) → (Rgb24Frame → Outcome ε Rgb24Frame) → Prop :=
  Paints (Rgb24Frame.Sized width height) Rgb24Frame.pixelAt
    fun _ => Option.map (blendOver color alpha)

theorem Tints.shows {color : Rgb} {alpha : UInt8} {S : Set (Int × Int)}
    [DecidablePred (· ∈ S)] (h : Tints width height color alpha S op) :
    Shows width height (Layer.tinted S color alpha) op := by
  refine h.renders.congr fun p px => ?_
  by_cases hp : p ∈ S <;> cases px <;> simp [Layer.tinted, hp]

end Shows

/-! ### Pixels that are let through -/

section Tint

variable {ε : Type} {width height : UInt32} {color : Rgb} {alpha : UInt8}

theorem forEach_blendAt {off c : Nat} {pre post fgs bgs : Bytes} (hoff : off + c = pre.length)
    (hlen : fgs.length = bgs.length) (halloc : pre.length + bgs.length < u64Bound) :
    (forEach (blendAt off alpha) c fgs (pre ++ (bgs ++ post)) : Outcome ε Bytes) =
      .ok (pre ++ (List.zipWith (fun fg bg => blend fg bg alpha) fgs bgs ++ post)) := by
  induction fgs generalizing c pre bgs with
  | nil =>
      obtain rfl : bgs = [] := List.eq_nil_of_length_eq_zero hlen.symm
      rfl
  | cons fg fgs ih =>
      cases bgs with
      | nil => cases hlen
      | cons bg bgs =>
          simp only [List.length_cons] at hlen halloc
          have hstep : (blendAt off alpha c fg (pre ++ (bg :: bgs ++ post)) : Outcome ε Bytes) =
              .ok (pre ++ [blend fg bg alpha] ++ (bgs ++ post)) := by
            rw [blendAt, u64Add_of_lt (by omega), ok_bind, hoff]
            simp
          rw [forEach, hstep, ok_bind, ih (by simp; omega) (by omega) (by simp; omega)]
          simp

theorem putPxAlpha_tints (x y : Int) :
    Tints (ε := ε) width height color alpha {(x, y)} fun frame =>
      putPxAlpha frame x y color alpha := by
  intro f hf
  have hmarks : Marks (ε := ε) width height {(x, y)} fun frame =>
      putPxAlpha frame x y color alpha := putPxAlpha_marks x y alpha
  obtain ⟨f', hput, hf', hout⟩ := hmarks f hf
  refine ⟨f', hput, hf', ?_, hout⟩
  rintro p rfl
  by_cases hin : (x, y) ∈ rect 0 0 width.toNat height.toNat
  · rw [hf'.pixelAt_of_mem hin, hf.pixelAt_of_mem hin]
    have hbounds := mem_rect.mp hin
    obtain ⟨x, rfl⟩ := Int.eq_ofNat_of_zero_le hbounds.1.1
    obtain ⟨y, rfl⟩ := Int.eq_ofNat_of_zero_le hbounds.2.1
    have hx : x + 1 ≤ width.toNat := by omega
    have hy : y < height.toNat := by omega
    have hroom := Rgb24Frame.Sized.offset_le hx hy
    have hlt := hf.size_lt
    rw [← hf.length_eq] at hroom hlt
    -- the bytes ahead of the pixel, its own, and the rest
    set off := 3 * (y * width.toNat + x) with hoff
    have hbytes : f.pixels =
        f.pixels.take off ++ ((f.pixels.drop off).take 3 ++ f.pixels.drop (off + 3)) := by
      rw [← List.drop_drop, List.take_append_drop, List.take_append_drop]
    have hpre : (f.pixels.take off).length = off := by simp; omega
    have hpx : ((f.pixels.drop off).take 3).length = 3 := by simp; omega
    have hblend : (forEach (blendAt off alpha) 0 color.bytes f.pixels : Outcome ε Bytes) =
        .ok (f.pixels.take off ++ (blendOver color alpha ((f.pixels.drop off).take 3) ++
          f.pixels.drop (off + 3))) := by
      conv_lhs => rw [hbytes]
      exact forEach_blendAt (by omega) (by rw [hpx]; rfl) (by omega)
    have hinside : ¬f.OutOfFrame x y := by
      rw [outOfFrame_iff hf, not_not]
      exact hin
    simp only [putPxAlpha, if_neg hinside, pxOffset_eq hf hx hy, ok_bind, ← hoff, hblend,
      pure_eq] at hput
    obtain rfl := Outcome.ok.inj hput
    have hblended : (blendOver color alpha ((f.pixels.drop off).take 3)).length = 3 := by
      rw [blendOver, List.length_zipWith, hpx]
      rfl
    simp only [Int.toNat_natCast, Rgb24Frame.pixel, hf.width_eq, ← hoff, Option.map_some]
    rw [List.drop_left' hpre, List.take_left' hblended]
  · rw [hf'.pixelAt_of_notMem hin, hf.pixelAt_of_notMem hin]
    rfl

theorem fillRectAlpha_tints (x y w h : Int) (hw : -2 ^ 63 ≤ x + w ∧ x + w < 2 ^ 63)
    (hh : -2 ^ 63 ≤ y + h ∧ y + h < 2 ^ 63) :
    Tints (ε := ε) width height color alpha (rect x y w h) fun frame =>
      fillRectAlpha frame x y w h color alpha := by
  have hrow : ∀ yy, Tints (ε := ε) width height color alpha
      {p | ∃ xx, (x ≤ xx ∧ xx < x + w) ∧ p ∈ ({(xx, yy)} : Set (Int × Int))}
      (rectRow (fun frame xx yy => putPxAlpha frame xx yy color alpha) x w yy) := by
    intro yy
    refine Paints.after (fun _ _ => i64_of_bounds hw.1 hw.2) ?_
    refine Paints.forInt_of_disjoint (fun i j hij => ?_) fun xx _ _ => putPxAlpha_tints xx yy
    simp [hij]
  have hdisj : Pairwise fun i j : Int =>
      Disjoint {p | ∃ xx, (x ≤ xx ∧ xx < x + w) ∧ p ∈ ({(xx, i)} : Set (Int × Int))}
        {p | ∃ xx, (x ≤ xx ∧ xx < x + w) ∧ p ∈ ({(xx, j)} : Set (Int × Int))} := by
    intro i j hij
    refine Set.disjoint_left.mpr ?_
    rintro _ ⟨xx, -, rfl⟩ ⟨xx', -, heq⟩
    exact hij (Prod.mk.inj heq).2
  refine (Paints.after (fun _ _ => i64_of_bounds hh.1 hh.2)
    (Paints.forInt_of_disjoint hdisj fun yy _ _ => hrow yy)).congr ?_
  rintro ⟨a, b⟩
  simp only [Set.mem_ofPred_eq, Set.mem_singleton_iff, Prod.mk.injEq, mem_rect]
  constructor
  · rintro ⟨yy, hy, xx, hx, rfl, rfl⟩
    exact ⟨hx, hy⟩
  · rintro ⟨hx, hy⟩
    exact ⟨b, hy, a, hx, rfl, rfl⟩

end Tint

/-! ### Text -/

/-- A bit of a byte, under the mask that is shifted to it from the left. -/
theorem and_mask_ne_zero_iff (bits : UInt8) (col : Fin 8) :
    bits &&& (0x80 >>> UInt8.ofNat col) ≠ 0 ↔ bits.toNat.testBit (7 - col) = true := by
  have hmask : ((0x80 : UInt8) >>> UInt8.ofNat col).toNat = 2 ^ (7 - col : Nat) := by
    revert col
    decide
  rw [ne_eq, ← UInt8.toNat_inj, UInt8.toNat_and, hmask, Nat.and_two_pow]
  cases bits.toNat.testBit (7 - col) <;> simp

theorem glyph_eq (c : Char) : (glyph c : Outcome ε Bytes) = .ok (glyphRows c) := by
  have hidx : (if c.toNat < 128 then c.toNat else 0) < 128 := by
    split
    · assumption
    · decide
  have hlen : fontPsf.length = 2052 := length_fontPsf
  rw [glyph, glyphRows]
  generalize (if c.toNat < 128 then c.toNat else 0) = idx at hidx ⊢
  generalize fontPsf = font at hlen ⊢
  unfold fontHeader glyphBytes
  rw [slice, if_pos (by omega)]
  congr 2
  omega

section Text

variable {ε : Type} {width height : UInt32} {x y s : Int}

section Char

variable (hx : -2 ^ 60 ≤ x ∧ x ≤ 2 ^ 60) (hy : -2 ^ 60 ≤ y ∧ y ≤ 2 ^ 60)
  (hs : 0 ≤ s ∧ s ≤ 2 ^ 40)

include hx hy hs

theorem drawDot_colors (color : Rgb) {row col : Nat} (hrow : row < 8) (hcol : col < 8) :
    Colors (ε := ε) width height color (rect (x + col * s) (y + row * s) s s)
      (drawDot x y color s row col) := by
  have hleft : 0 ≤ (col : Int) * s ∧ (col : Int) * s ≤ 7 * s :=
    ⟨mul_nonneg (by omega) hs.1, mul_le_mul_of_nonneg_right (by omega) hs.1⟩
  have htop : 0 ≤ (row : Int) * s ∧ (row : Int) * s ≤ 7 * s :=
    ⟨mul_nonneg (by omega) hs.1, mul_le_mul_of_nonneg_right (by omega) hs.1⟩
  have hdots : Colors (ε := ε) width height color
      {p | ∃ dy, (0 ≤ dy ∧ dy < s) ∧ p ∈ {p | ∃ dx, (0 ≤ dx ∧ dx < s) ∧
        p ∈ ({(x + col * s + dx, y + row * s + dy)} : Set (Int × Int))}}
      (drawDot x y color s row col) := by
    refine Paints.forInt (color_idem color) fun dy hdy hdy' =>
      Paints.forInt (color_idem color) fun dx hdx hdx' => ?_
    refine .after (fun _ _ => i64_of_bounds (by omega) (by omega)) ?_
    refine .after (fun _ _ => i64_of_bounds (by omega) (by omega)) ?_
    refine .after (fun _ _ => i64_of_bounds (by omega) (by omega)) ?_
    refine .after (fun _ _ => i64_of_bounds (by omega) (by omega)) ?_
    refine .after (fun _ _ => i64_of_bounds (by omega) (by omega)) ?_
    refine .after (fun _ _ => i64_of_bounds (by omega) (by omega)) ?_
    exact putPx_colors _ _
  refine hdots.congr ?_
  rintro ⟨a, b⟩
  simp only [Set.mem_ofPred_eq, Set.mem_singleton_iff, Prod.mk.injEq, mem_rect]
  constructor
  · rintro ⟨dy, hdy, dx, hdx, rfl, rfl⟩
    omega
  · rintro ⟨ha, hb⟩
    exact ⟨b - (y + row * s), by omega, a - (x + col * s), by omega, by omega, by omega⟩

theorem drawChar_colors (color : Rgb) (c : Char) :
    Colors (ε := ε) width height color (glyphDots c x y s) fun frame =>
      drawChar frame x y c color s := by
  obtain ⟨g, hglyph, hlen⟩ := exists_glyph (ε := ε) c
  obtain rfl : glyphRows c = g := Outcome.ok.inj ((glyph_eq c).symm.trans hglyph)
  let dots : Nat → UInt8 → Set (Int × Int) := fun row bits =>
    {p | ∃ col < 8, p ∈ {p | bits &&& (0x80 >>> UInt8.ofNat col) ≠ 0 ∧
      p ∈ rect (x + (col : Nat) * s) (y + row * s) s s}}
  have hrows : Colors (ε := ε) width height color
      {p | ∃ row bits, (glyphRows c)[row]? = some bits ∧ p ∈ dots (0 + row) bits}
      (forEach (drawGlyphRow x y color s) 0 (glyphRows c)) := by
    refine Paints.forEach (color_idem color) fun row bits hbits => ?_
    have hrow : row < 8 := hlen ▸ (List.getElem?_eq_some_iff.mp hbits).1
    exact Paints.forRange (color_idem color) fun col hcol => Paints.ite fun _ =>
      drawDot_colors hx hy hs color (by omega) hcol
  refine (Paints.after (fun _ _ => hglyph) hrows).congr fun p => ?_
  simp only [dots, Nat.zero_add, Set.mem_ofPred_eq]
  constructor
  · rintro ⟨row, bits, hbits, col, hcol, hset, hp⟩
    have hrow : row < 8 := hlen ▸ (List.getElem?_eq_some_iff.mp hbits).1
    refine ⟨⟨row, hrow⟩, ⟨col, hcol⟩, ?_, hp⟩
    rw [glyphBit, List.getD_eq_getElem?_getD, hbits]
    exact (and_mask_ne_zero_iff bits ⟨col, hcol⟩).mp hset
  · rintro ⟨row, col, hbit, hp⟩
    have hbits := List.getElem?_eq_getElem (show (row : Nat) < (glyphRows c).length by omega)
    rw [glyphBit, List.getD_eq_getElem?_getD, hbits] at hbit
    exact ⟨row, _, hbits, col, col.isLt, (and_mask_ne_zero_iff _ col).mpr hbit, hp⟩

end Char

/-- The loop with its pen, as a loop that counts the characters. -/
theorem drawChars_eq (color : Rgb) {cs : List Char} {i : Nat} (hx : -2 ^ 59 ≤ x)
    (hs : 0 ≤ s ∧ s ≤ 2 ^ 40) (hend : x + 8 * s * (i + cs.length : Nat) ≤ 2 ^ 60)
    (frame : Rgb24Frame) :
    (drawChars y color s cs (x + 8 * s * i) frame : Outcome ε _) =
      (forEach (fun k c frame => drawChar frame (x + 8 * s * k) y c color s) i cs frame >>=
        fun frame => .ok (frame, x + 8 * s * (i + cs.length : Nat))) := by
  induction cs generalizing i frame with
  | nil => simp [drawChars, forEach]
  | cons c cs ih =>
      have hpen : x + 8 * s * i + 8 * s = x + 8 * s * (i + 1 : Nat) := by
        push_cast
        ring
      have hcount : i + (c :: cs).length = i + 1 + cs.length := by
        rw [List.length_cons]
        omega
      have hnonneg : 0 ≤ 8 * s * (i : Int) := mul_nonneg (by omega) (by omega)
      have hle : 8 * s * ((i + 1 : Nat) : Int) ≤ 8 * s * (i + 1 + cs.length : Nat) :=
        mul_le_mul_of_nonneg_left (by omega) (by omega)
      rw [hcount] at hend ⊢
      rw [drawChars, forEach, bind_assoc]
      congr 1
      ext1 frame
      rw [i64_of_bounds (by omega) (by omega), ok_bind, i64_of_bounds (by omega) (by omega),
        ok_bind, hpen, ih hend frame]

theorem drawText_colors (color : Rgb) (text : String) (hx : -2 ^ 59 ≤ x)
    (hy : -2 ^ 60 ≤ y ∧ y ≤ 2 ^ 60) (hs : 0 ≤ s ∧ s ≤ 2 ^ 40)
    (hend : x + 8 * s * text.length ≤ 2 ^ 60) (hlen : 8 * s * text.length ≤ 2 ^ 60) :
    Colors (ε := ε) width height color (charDots text.toList x y s) fun frame =>
      drawText frame x y text color s >>= fun drawn => pure drawn.1 := by
  have hpos : 0 ≤ 8 * s * (text.length : Int) := mul_nonneg (by omega) (by omega)
  rw [← String.length_toList] at hend hlen hpos
  have hchars : Colors (ε := ε) width height color
      {p | ∃ k c, text.toList[k]? = some c ∧ p ∈ glyphDots c (x + 8 * s * (0 + k : Nat)) y s}
      (forEach (fun k c frame => drawChar frame (x + 8 * s * k) y c color s) 0 text.toList) := by
    refine Paints.forEach (color_idem color)
      (S := fun k c => glyphDots c (x + 8 * s * (k : Nat)) y s) fun k c hc => ?_
    have hk : k < text.toList.length := (List.getElem?_eq_some_iff.mp hc).1
    have hnonneg : 0 ≤ 8 * s * ((0 + k : Nat) : Int) := mul_nonneg (by omega) (by omega)
    have hle : 8 * s * ((0 + k : Nat) : Int) ≤ 8 * s * (text.toList.length : Int) :=
      mul_le_mul_of_nonneg_left (by omega) (by omega)
    exact drawChar_colors (by omega) hy hs color c
  intro f hf
  obtain ⟨f', hloop, hf', hin, hout⟩ := (hchars.congr fun p => by
    simp only [Nat.zero_add, Set.mem_ofPred_eq]
    constructor
    · rintro ⟨k, c, hc, hp⟩
      obtain ⟨hk, rfl⟩ := List.getElem?_eq_some_iff.mp hc
      exact ⟨⟨k, hk⟩, hp⟩
    · rintro ⟨k, hp⟩
      exact ⟨k, _, List.getElem?_eq_getElem k.isLt, hp⟩ : Colors (ε := ε) width height color
        (charDots text.toList x y s) _) f hf
  refine ⟨f', ?_, hf', hin, hout⟩
  have hpen : x + 8 * s * (0 + text.toList.length : Nat) ≤ 2 ^ 60 := by rwa [Nat.zero_add]
  have hdrawn := drawChars_eq (ε := ε) (y := y) color hx hs hpen f
  rw [hloop, ok_bind, Nat.cast_zero, mul_zero, add_zero, Nat.zero_add] at hdrawn
  simp only [drawText, hdrawn, ok_bind, i64_of_bounds (ε := ε)
    (show -2 ^ 63 ≤ x + 8 * s * (text.toList.length : Int) - x by omega) (by omega), pure_eq]

end Text

end ReplayRenderer
