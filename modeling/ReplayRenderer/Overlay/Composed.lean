import ReplayRenderer.Overlay.Picture

/-!
Composition renders the picture of the overlay. Every element shows its layer,
whatever frame it is drawn on and however much of it the frame has, so the
composed frame is the layers of the enabled elements over the pixels that were
there.
-/

namespace ReplayRenderer

open Lib Lib.Outcome

section Elements

variable {ε : Type} {width height : UInt32}

theorem rectOutline_colors (x y w h t : Int) (color : Rgb) (hx : -2 ^ 62 ≤ x ∧ x < 2 ^ 62)
    (hy : -2 ^ 62 ≤ y ∧ y < 2 ^ 62) (ht : 0 ≤ t) (hw : t ≤ w ∧ w < 2 ^ 62)
    (hh : t ≤ h ∧ h < 2 ^ 62) :
    Colors (ε := ε) width height color (outlineSet x y w h t) fun frame =>
      rectOutline frame x y w h t color := by
  have hside : ∀ x' y' w' h', -2 ^ 63 ≤ x' + w' ∧ x' + w' < 2 ^ 63 →
      -2 ^ 63 ≤ y' + h' ∧ y' + h' < 2 ^ 63 → Colors (ε := ε) width height color
        (rect x' y' w' h') fun frame => fillRect frame x' y' w' h' color :=
    fun x' y' w' h' => fillRect_colors x' y' w' h' color
  refine Paints.congr (S := rect x y w t ∪ (rect x (y + h - t) w t ∪
    (rect x y t h ∪ rect (x + w - t) y t h))) ?_ fun p => ?_
  · refine (hside x y w t (by omega) (by omega)).seq (color_idem color) ?_
    refine .after (fun _ _ => i64_of_bounds (by omega) (by omega)) ?_
    refine .after (fun _ _ => i64_of_bounds (by omega) (by omega)) ?_
    refine (hside x (y + h - t) w t (by omega) (by omega)).seq (color_idem color) ?_
    refine (hside x y t h (by omega) (by omega)).seq (color_idem color) ?_
    refine .after (fun _ _ => i64_of_bounds (by omega) (by omega)) ?_
    refine .after (fun _ _ => i64_of_bounds (by omega) (by omega)) ?_
    exact hside (x + w - t) y t h (by omega) (by omega)
  · simp only [Set.mem_union, mem_rect, outlineSet, Set.mem_ofPred_eq]
    omega

/-- The bit of a button, tested by the mask that is shifted to it. -/
theorem and_bit_ne_zero_iff (buttons : UInt32) {i : Nat} (hi : i < 32) :
    buttons &&& (1 <<< UInt32.ofNat i) ≠ 0 ↔ buttons.toNat.testBit i = true := by
  have hmask : ((1 : UInt32) <<< UInt32.ofNat i).toNat = 2 ^ i := by
    have hshift : (UInt32.ofNat i).toNat = i :=
      UInt32.toNat_ofNat_of_lt' (hi.trans (by decide))
    rw [UInt32.toNat_shiftLeft, hshift, Nat.mod_eq_of_lt hi]
    simp only [UInt32.toNat_one, Nat.one_shiftLeft]
    exact Nat.mod_eq_of_lt (Nat.pow_lt_pow_right (by omega) hi)
  rw [ne_eq, ← UInt32.toNat_inj, UInt32.toNat_and, hmask, Nat.and_two_pow]
  cases buttons.toNat.testBit i <;> simp

/-- The search for a button of the layout ends at its place in the order. -/
theorem findIdx?_layout {b : HudButton} (hb : b ∈ layout) :
    buttonOrder.findIdx? (fun c => c = b.ch) = some (buttonOrder.idxOf b.ch) ∧
      buttonOrder.idxOf b.ch < 12 := by
  revert b
  decide

variable {s : Int} (hs : 1 ≤ s ∧ s ≤ 2 ^ 32)

include hs

theorem drawButton_shows {x y : Int} (hx : -2 ^ 40 ≤ x ∧ x ≤ 2 ^ 40)
    (hy : -2 ^ 40 ≤ y ∧ y ≤ 2 ^ 40) (buttons : UInt32) {b : HudButton} (hb : b ∈ layout) :
    Shows (ε := ε) width height (buttonLayer x y buttons s b) (drawButton x y buttons s b) := by
  obtain ⟨hbit, hlt⟩ := findIdx?_layout hb
  obtain ⟨-, hcol, hrow⟩ := layout_spec hb
  obtain ⟨hbx, hbx0, hbx7⟩ := cellAt_eq (ε := ε) hs hx hcol
  obtain ⟨hby, hby0, hby7⟩ := cellAt_eq (ε := ε) hs hy (show 0 ≤ b.row ∧ b.row ≤ 7 by omega)
  refine .after (fun _ _ => hbit.symm ▸ expect_some _) ?_
  refine .after (fun _ _ => hbx) (.after (fun _ _ => hby) ?_)
  refine .after (fun _ _ => i64_of_bounds (by omega) (by omega)) ?_
  refine .after (fun _ _ => i64_of_bounds (by omega) (by omega)) ?_
  refine .after (fun _ _ => i64_of_bounds (by omega) (by omega)) ?_
  have hglyph : ∀ color, Shows (ε := ε) width height (Layer.solid (glyphDots b.ch
      (x + b.col * 12 * s + s) (y + b.row * 12 * s + s) s) color) fun frame =>
        drawChar frame (x + b.col * 12 * s + s) (y + b.row * 12 * s + s) b.ch color s :=
    fun color => (drawChar_colors (by omega) (by omega) (by omega) color b.ch).shows
  refine (Renders.ite
    (fun _ => (fillRect_colors _ _ (10 * s) (10 * s) pressedFill
      (by omega) (by omega)).shows.over (hglyph pressedGlyph))
    fun _ => (rectOutline_colors _ _ (10 * s) (10 * s) s releasedOutline (by omega) (by omega)
      (by omega) (by omega) (by omega)).shows.over (hglyph releasedGlyph)).congr fun p px => ?_
  have hset := and_bit_ne_zero_iff buttons (show buttonOrder.idxOf b.ch < 32 by omega)
  by_cases hbutton : isPressed buttons b.ch = true
  · rw [if_pos (hset.mpr hbutton), buttonLayer, if_pos hbutton]
  · rw [if_neg fun hand => hbutton (hset.mp hand), buttonLayer, if_neg hbutton]

theorem drawHud_shows {x y : Int} (hx : -2 ^ 40 ≤ x ∧ x ≤ 2 ^ 40)
    (hy : -2 ^ 40 ≤ y ∧ y ≤ 2 ^ 40) (buttons : UInt32) :
    Shows (ε := ε) width height (hudLayer x y buttons s) fun frame =>
      drawHud frame x y buttons s := by
  refine (Renders.forEach fun _ _ hb => drawButton_shows hs hx hy buttons hb).congr fun p px => ?_
  unfold hudLayer
  generalize layout = buttonsLeft
  induction buttonsLeft generalizing px with
  | nil => cases px <;> rfl
  | cons b bs ih =>
      cases px with
      | none => exact ih none
      | some px => exact ih (some _)

theorem drawBoxed_shows (x y pad : Int) {text : String} (color : Rgb) (alpha : UInt8)
    (hx : -2 ^ 50 ≤ x ∧ x ≤ 2 ^ 50) (hy : 0 ≤ y ∧ y ≤ 2 ^ 40) (hpad : 0 ≤ pad ∧ pad ≤ 2 ^ 40)
    (hlen : text.length ≤ 64) :
    Shows (ε := ε) width height (boxedLayer x y pad text color alpha s) fun frame =>
      drawBoxed frame x y (8 * s * text.length) pad text color alpha s := by
  obtain ⟨htw0, htw, -⟩ := textWidth_bounds (ε := ε) hs hlen
  refine .after (fun _ _ => i64_of_bounds (by omega) (by omega)) ?_
  refine .after (fun _ _ => i64_of_bounds (by omega) (by omega)) ?_
  refine .after (fun _ _ => i64_of_bounds (by omega) (by omega)) ?_
  refine .after (fun _ _ => i64_of_bounds (by omega) (by omega)) ?_
  refine .after (fun _ _ => i64_of_bounds (by omega) (by omega)) ?_
  refine .after (fun _ _ => i64_of_bounds (by omega) (by omega)) ?_
  exact (fillRectAlpha_tints _ _ _ _ (by omega) (by omega)).shows.over
    (drawText_colors color text (by omega) (by omega) (by omega) (by omega) (by omega)).shows

theorem drawCounter_shows (frameIndex vns : UInt64) :
    Shows (ε := ε) width height (counterLayer width frameIndex vns s) fun frame =>
      drawCounter frame frameIndex vns s := by
  intro f hf
  have hlen := length_counterText frameIndex vns
  have hwidth := width.toNat_lt
  obtain ⟨htw0, htw, htext⟩ := textWidth_bounds (ε := ε) hs hlen
  obtain ⟨f', hdraw, hf', hpixel⟩ := drawBoxed_shows (ε := ε) hs
    (width.toNat - 8 * s * (counterText frameIndex vns).length - 3 * (2 * s)) (2 * s) (2 * s)
    ⟨255, 255, 255⟩ 128 (by omega) (by omega) (by omega) hlen f hf
  refine ⟨f', ?_, hf', hpixel⟩
  simp only [drawCounter]
  rw [htext, ok_bind, hf.width_eq, i64_of_bounds (n := 2 * s) (by omega) (by omega), ok_bind,
    i64_of_bounds (by omega) (by omega), ok_bind, i64_of_bounds (by omega) (by omega), ok_bind,
    i64_of_bounds (by omega) (by omega), ok_bind, ok_bind]
  exact hdraw

theorem drawBanner_shows (nodeOrd nodeTotal : UInt32) (nodeId : UInt64) :
    Shows (ε := ε) width height (bannerLayer width nodeOrd nodeTotal nodeId s) fun frame =>
      drawBanner frame nodeOrd nodeTotal nodeId s := by
  intro f hf
  have hlen := length_bannerText nodeOrd nodeTotal nodeId
  have hwidth := width.toNat_lt
  obtain ⟨htw0, htw, htext⟩ := textWidth_bounds (ε := ε) hs hlen
  have hhalf := tdiv_two_bounds
    (n := width.toNat - 8 * s * (bannerText nodeOrd nodeTotal nodeId).length) (by omega)
  obtain ⟨f', hdraw, hf', hpixel⟩ := drawBoxed_shows (ε := ε) hs
    ((width.toNat - 8 * s * (bannerText nodeOrd nodeTotal nodeId).length).tdiv 2) (14 * s) (3 * s)
    ⟨255, 230, 120⟩ 160 (by omega) (by omega) (by omega) hlen f hf
  refine ⟨f', ?_, hf', hpixel⟩
  simp only [drawBanner]
  rw [htext, ok_bind, hf.width_eq, i64_of_bounds (by omega) (by omega), ok_bind,
    i64_of_bounds (by omega) (by omega), ok_bind, i64_of_bounds (by omega) (by omega), ok_bind,
    i64_of_bounds (by omega) (by omega), ok_bind]
  exact hdraw

theorem composeHud_shows (ctx : FrameOverlayCtx) {reserved : Int}
    (hreserved : 0 ≤ reserved ∧ reserved < 2 ^ 32) :
    Shows (ε := ε) width height
      (hudLayer (4 * s) (height.toNat - reserved - 48 * s - 4 * s) ctx.heldButtons s)
      (composeHud s ctx reserved) := by
  intro f hf
  have hheight := height.toNat_lt
  obtain ⟨f', hdraw, hf', hpixel⟩ := drawHud_shows (ε := ε) hs (x := 4 * s)
    (y := height.toNat - reserved - 48 * s - 4 * s) (by omega) (by omega) ctx.heldButtons f hf
  refine ⟨f', ?_, hf', hpixel⟩
  have hsize : (hudSize s : Outcome ε (Int × Int)) = .ok (96 * s, 48 * s) := by
    unfold hudSize gridCols gridRows
    rw [i64_of_bounds (by omega) (by omega), ok_bind, i64_of_bounds (by omega) (by omega), ok_bind]
    rfl
  rw [composeHud, hsize, ok_bind]
  simp only
  rw [hf.height_eq, i64_of_bounds (by omega) (by omega), ok_bind,
    i64_of_bounds (by omega) (by omega), ok_bind, i64_of_bounds (by omega) (by omega), ok_bind,
    i64_of_bounds (by omega) (by omega), ok_bind]
  exact hdraw

theorem composeBanner_shows {ctx : FrameOverlayCtx}
    (hfits : ctx.framesSinceBoundary.toNat * ctx.fpsDen.toNat < 2 ^ 64) :
    Shows (ε := ε) width height
      (Layer.when (ctx.framesSinceBoundary.toNat * ctx.fpsDen.toNat < ctx.fpsNum.toNat)
        (bannerLayer width ctx.nodeOrd ctx.nodeTotal ctx.nodeId s)) (composeBanner s ctx) := by
  have hvisible : (bannerVisible ctx.framesSinceBoundary ctx.fpsNum ctx.fpsDen : Outcome ε Bool) =
      .ok (ctx.framesSinceBoundary.toNat * ctx.fpsDen.toNat < ctx.fpsNum.toNat) := by
    rw [bannerVisible, u64Mul_of_lt hfits, ok_bind, pure_eq]
  exact .after (fun _ _ => hvisible)
    (Shows.when _ (drawBanner_shows hs ctx.nodeOrd ctx.nodeTotal ctx.nodeId))

end Elements

/-! ### The strip -/

section Strip

variable {ε : Type} {width height : UInt32} {strip : StripTexture}

/-- A row of the strip goes over the row of the frame, as far as both reach. -/
theorem blitRow_paints (hstrip : strip.image.InMemory) {y0 y m : Nat}
    (hy : y < strip.image.height.toNat) (hroom : y0 + y < height.toNat)
    (hm : m ≤ strip.image.width.toNat ∧ m ≤ width.toNat) :
    Paints (Rgb24Frame.Sized width height) Rgb24Frame.pixelAt
      (fun p => Option.map fun _ => strip.image.pixel (p.1 - 0).toNat (p.2 - y0).toNat)
      (rect (0 : Nat) (y0 + y : Nat) m 1) (blitRow (ε := ε) strip y0 m y) := by
  intro f hf
  have hread := Rgb24Frame.row_eq (ε := ε) hstrip.wellFormed hstrip.sized.size_lt hy
  have hpixel : ∀ x < strip.image.width.toNat, (strip.image.pixel x y).length = 3 :=
    fun x hx => Rgb24Frame.length_pixel hstrip.wellFormed hx hy
  have hlen := length_cells hpixel
  set row := cells strip.image.width.toNat fun x => strip.image.pixel x y with hrow
  have hpart : (slice row 0 (3 * m) : Outcome ε Bytes) = .ok (row.take (3 * m)) := by
    rw [slice, if_pos (by omega), List.drop_zero, Nat.sub_zero]
  have hpartLen : (row.take (3 * m)).length = 3 * m := by
    rw [List.length_take]
    omega
  obtain ⟨pixels, hcopy, hf', hin, hout⟩ := hf.copyRow (ε := ε)
    (show 0 + m ≤ width.toNat by omega) hroom hpartLen
  have hbytes := Rgb24Frame.Sized.offset_le (show 0 + m ≤ width.toNat by omega) hroom
  have hlt := hf.size_lt
  have hheight := height.toNat_lt
  rw [Nat.add_zero] at hcopy hbytes
  refine ⟨_, ?_, hf', fun p hp => ?_, hout⟩
  · rw [blitRow, hread, ok_bind, u32_of_lt (by omega), ok_bind, hf.width_eq,
      u64Mul_of_lt (by omega), ok_bind, u64Mul_of_lt (by omega), ok_bind,
      u64Mul_of_lt (by omega), ok_bind, u64Add_of_lt (by omega), ok_bind, hpart, ok_bind, hcopy,
      ok_bind, pure_eq]
  · rw [hin hp]
    rw [mem_rect] at hp
    obtain ⟨a, b⟩ := p
    simp only at hp ⊢
    obtain ⟨k, rfl⟩ := Int.eq_ofNat_of_zero_le (show 0 ≤ a by omega)
    obtain rfl : b = ((y0 + y : Nat) : Int) := by omega
    have hcell := cell_cells hpixel (show k < strip.image.width.toNat by omega)
    rw [← hrow, cell, Nat.mul_comm] at hcell
    have hinside : ((k : Int), ((y0 + y : Nat) : Int)) ∈ rect 0 0 width.toNat height.toNat := by
      rw [mem_rect]
      simp only
      omega
    rw [hf.pixelAt_of_mem hinside, Option.map_some, Nat.cast_zero, Int.sub_zero,
      Int.toNat_natCast, Nat.cast_add, add_sub_cancel_left, Int.toNat_natCast, List.drop_take,
      List.take_take, min_eq_left (by omega), hcell]

theorem blitStrip_shows (hstrip : strip.image.InMemory) (ctx : FrameOverlayCtx) :
    Shows (ε := ε) width height (stripLayer width height ctx strip) fun frame =>
      blitStrip frame strip ctx.frameOrd ctx.totalFrames := by
  let y0 := height.toNat - strip.image.height.toNat
  let m := min strip.image.width.toNat width.toNat
  let rows := min strip.image.height.toNat height.toNat
  let x := frameToX ctx.frameOrd (max ctx.totalFrames 1) width
  have himage : Shows (ε := ε) width height (Layer.image strip.image 0 y0 m rows) fun frame =>
      forRange (blitRow strip y0 m) frame rows := by
    have hrows : Paints (Rgb24Frame.Sized width height) Rgb24Frame.pixelAt
        (fun p => Option.map fun _ => strip.image.pixel (p.1 - 0).toNat (p.2 - y0).toNat)
        {p | ∃ y < rows, p ∈ rect (0 : Nat) (y0 + y : Nat) m 1} fun frame =>
          forRange (blitRow (ε := ε) strip y0 m) frame rows :=
      Paints.forRange (fun _ px => by cases px <;> rfl) fun y hy =>
        blitRow_paints hstrip (by omega) (by omega) (by omega)
    have hset : ∀ p, p ∈ {p | ∃ y < rows, p ∈ rect (0 : Nat) (y0 + y : Nat) m 1} ↔
        p ∈ rect 0 y0 m rows := by
      intro p
      simp only [Set.mem_ofPred_eq, mem_rect]
      constructor
      · rintro ⟨y, hy, hp⟩
        omega
      · intro hp
        exact ⟨(p.2 - y0).toNat, by omega, by omega⟩
    refine (hrows.congr hset).renders.congr fun p px => ?_
    by_cases hp : p ∈ rect 0 y0 m rows <;> cases px <;> simp [Layer.image, hp]
  have hplayhead : Shows (ε := ε) width height (Layer.solid (rect x y0 1 rows) playhead)
      fun frame => forInt (fun y frame => putPx frame x y playhead) frame y0 height.toNat := by
    have hcolumn : Colors (ε := ε) width height playhead
        {p | ∃ y, ((y0 : Int) ≤ y ∧ y < (height.toNat : Int)) ∧ p ∈ ({(x, y)} : Set (Int × Int))}
        fun frame => forInt (fun y frame => putPx frame x y playhead) frame y0 height.toNat :=
      Paints.forInt (color_idem playhead) fun y _ _ => putPx_colors x y
    refine Colors.shows (hcolumn.congr ?_)
    rintro ⟨a, b⟩
    simp only [Set.mem_ofPred_eq, Set.mem_singleton_iff, Prod.mk.injEq, mem_rect]
    constructor
    · rintro ⟨y, hy, rfl, rfl⟩
      omega
    · intro hp
      exact ⟨b, by omega, by omega, rfl⟩
  intro f hf
  obtain ⟨f', hblit, hf', hpixel⟩ := (himage.over hplayhead) f hf
  refine ⟨f', ?_, hf', hpixel⟩
  simp only [blitStrip, hf.width_eq, hf.height_eq]
  exact hblit

theorem composeStrip_shows (shown : Option StripTexture)
    (hstrip : ∀ t, shown = some t → t.image.InMemory) (ctx : FrameOverlayCtx) :
    Shows (ε := ε) width height (shownLayer width height ctx shown) (composeStrip ctx shown) := by
  cases shown with
  | none => exact Shows.clear
  | some strip => exact blitStrip_shows (hstrip strip rfl) ctx

end Strip

/-! ### The composed frame -/

theorem shownStrip_eq_some {opts : OverlayOptions} {strip : Option StripTexture}
    {shown : StripTexture} (h : shownStrip opts strip = some shown) : strip = some shown := by
  unfold shownStrip at h
  split at h
  · exact h
  · cases h

theorem compose_shows {ε : Type} {width height : UInt32} (s : UInt32) {ctx : FrameOverlayCtx}
    {opts : OverlayOptions} (hfits : opts.nodeBanner = true →
      ctx.framesSinceBoundary.toNat * ctx.fpsDen.toNat < 2 ^ 64)
    {strip : Option StripTexture} (hstrip : ∀ t, strip = some t → t.image.InMemory) :
    Shows (ε := ε) width height (overlayLayer width height (max s.toNat 1 : Nat) ctx opts strip)
      fun frame => compose frame s ctx opts strip := by
  have hscale : 1 ≤ ((max s.toNat 1 : Nat) : Int) ∧ ((max s.toNat 1 : Nat) : Int) ≤ 2 ^ 32 := by
    have := s.toNat_lt
    omega
  have hreserved : 0 ≤ bottomReserved (shownStrip opts strip) ∧
      bottomReserved (shownStrip opts strip) < 2 ^ 32 := by
    unfold bottomReserved
    split
    · next shown _ =>
        have := shown.image.height.toNat_lt
        omega
    · omega
  have hbanner : Shows (ε := ε) width height (Layer.when opts.nodeBanner
      (Layer.when (ctx.framesSinceBoundary.toNat * ctx.fpsDen.toNat < ctx.fpsNum.toNat)
        (bannerLayer width ctx.nodeOrd ctx.nodeTotal ctx.nodeId (max s.toNat 1 : Nat))))
      (whenSet opts.nodeBanner (composeBanner (max s.toNat 1 : Nat) ctx)) := by
    cases henabled : opts.nodeBanner with
    | false => exact Shows.clear
    | true => exact Shows.when true (composeBanner_shows hscale (hfits henabled))
  refine ((composeStrip_shows (shownStrip opts strip)
    (fun t ht => hstrip t (shownStrip_eq_some ht)) ctx).over
      ((Shows.when opts.inputHud (composeHud_shows hscale ctx hreserved)).over
        ((Shows.when opts.frameCounter (drawCounter_shows hscale ctx.frameIndex ctx.vns)).over
          hbanner))).congr fun p px => ?_
  rw [overlayLayer, Layer.when_and]
  rfl

/-- The banner is drawn last, over what the others leave. -/
theorem compose_nodeBanner {ε : Type} {frame : Rgb24Frame} {s : UInt32} {ctx : FrameOverlayCtx}
    {opts : OverlayOptions} {strip : Option StripTexture} (hbanner : opts.nodeBanner = true) :
    (compose frame s ctx opts strip : Outcome ε Rgb24Frame) =
      compose frame s ctx { opts with nodeBanner := false } strip >>=
        composeBanner (max s.toNat 1 : Nat) ctx := by
  have hshown : shownStrip { opts with nodeBanner := false } strip = shownStrip opts strip := rfl
  simp only [compose, hshown, hbanner, bind_assoc, whenSet, if_true, Bool.false_eq_true, if_false,
    pure_eq, ok_bind]

/-- The product of the banner's test is not checked before it is taken. -/
theorem composeBanner_panics {ε : Type} {s : Int} {ctx : FrameOverlayCtx} {frame : Rgb24Frame}
    (hover : 2 ^ 64 ≤ ctx.framesSinceBoundary.toNat * ctx.fpsDen.toNat) :
    (composeBanner s ctx frame : Outcome ε Rgb24Frame) = .panic := by
  have hmul : (u64Mul ctx.framesSinceBoundary.toNat ctx.fpsDen.toNat : Outcome ε Nat) = .panic :=
    if_neg (Nat.not_lt.mpr hover)
  rw [composeBanner, bannerVisible, hmul]
  rfl

/-- Composition returns the frame that shows the picture of the overlay over
the pixels that were there, unless the banner is on and the product of its test
does not fit 64 bits: then it panics. -/
theorem compose_eq_overlayLayer {frame : Rgb24Frame} (hframe : frame.InMemory) (s : UInt32)
    (ctx : FrameOverlayCtx) (opts : OverlayOptions) {strip : Option StripTexture}
    (hstrip : ∀ t, strip = some t → t.image.InMemory) :
    (compose frame s ctx opts strip : Outcome Empty Rgb24Frame) =
      if opts.nodeBanner = true ∧ 2 ^ 64 ≤ ctx.framesSinceBoundary.toNat * ctx.fpsDen.toNat then
        .panic
      else .ok (Rgb24Frame.ofPixels frame.width frame.height fun x y =>
        overlayLayer frame.width frame.height (max s.toNat 1 : Nat) ctx opts strip (x, y)
          (frame.pixel x y)) := by
  split
  · next hover =>
      obtain ⟨hbanner, hover⟩ := hover
      have hothers : Shows (ε := Empty) frame.width frame.height _ _ :=
        @compose_shows Empty _ _ s ctx { opts with nodeBanner := false } (by simp) _ hstrip
      rw [compose_nodeBanner hbanner, hothers.eq_ofPixels hframe.sized, ok_bind,
        composeBanner_panics hover]
  · next hfits =>
      have hshows : Shows (ε := Empty) frame.width frame.height _ _ :=
        compose_shows s
          (fun hbanner => Nat.lt_of_not_le fun hover => hfits ⟨hbanner, hover⟩) hstrip
      exact hshows.eq_ofPixels hframe.sized

/-- A strip that is wider than the frame, and everything enabled; the boundary
was a long time ago. -/
theorem compose_eq_overlayLayer_tiny :
    (compose ⟨2, 1, zeros 6⟩ 0 ⟨7, 1, 3, 1500000, 5, 1, 2, 9, 0, 60, 1⟩ ⟨true, true, true, true⟩
        (some ⟨⟨3, 2, zeros 18⟩⟩) : Outcome Empty Rgb24Frame) =
      .ok (Rgb24Frame.ofPixels 2 1 fun x y =>
        overlayLayer 2 1 (max (0 : UInt32).toNat 1 : Nat) ⟨7, 1, 3, 1500000, 5, 1, 2, 9, 0, 60, 1⟩
          ⟨true, true, true, true⟩ (some ⟨⟨3, 2, zeros 18⟩⟩) (x, y)
          (Rgb24Frame.pixel ⟨2, 1, zeros 6⟩ x y)) ∧
    (compose ⟨2, 1, zeros 6⟩ 0 ⟨7, 1, 3, 1500000, 5, 1, 2, 9, 9223372036854775808, 60, 2⟩
        ⟨true, true, true, true⟩ (some ⟨⟨3, 2, zeros 18⟩⟩) : Outcome Empty Rgb24Frame) = .panic := by
  have hframe : Rgb24Frame.InMemory ⟨2, 1, zeros 6⟩ := ⟨rfl, by decide⟩
  have hstrip : ∀ t, some (StripTexture.mk ⟨3, 2, zeros 18⟩) = some t → t.image.InMemory := by
    rintro _ ⟨⟩
    exact ⟨rfl, by decide⟩
  refine ⟨?_, ?_⟩
  · exact (compose_eq_overlayLayer hframe 0 _ _ hstrip).trans (if_neg (by decide))
  · exact (compose_eq_overlayLayer hframe 0 _ _ hstrip).trans (if_pos ⟨rfl, by decide⟩)

end ReplayRenderer
