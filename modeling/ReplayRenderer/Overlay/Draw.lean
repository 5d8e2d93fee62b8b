import ReplayRenderer.Frames.Rgb24

/-!
Drawing primitives over a frame. Coordinates are signed and clipped pixel by
pixel, so an operation is described on the whole plane: it paints a set of
points, and the frame shows the part of it that it has.
-/

namespace ReplayRenderer

open Lib Lib.Outcome

structure Rgb where
  r : UInt8
  g : UInt8
  b : UInt8
  deriving DecidableEq, Repr

def Rgb.bytes (color : Rgb) : Bytes := [color.r, color.g, color.b]

def blend (fg bg a : UInt8) : UInt8 :=
  ((a.toUInt16 * fg.toUInt16 + (255 - a).toUInt16 * bg.toUInt16 + 127) / 255).toUInt8

def Rgb24Frame.OutOfFrame (frame : Rgb24Frame) (x y : Int) : Prop :=
  x < 0 ∨ y < 0 ∨ (frame.width.toNat : Int) ≤ x ∨ (frame.height.toNat : Int) ≤ y

instance (frame : Rgb24Frame) (x y : Int) : Decidable (frame.OutOfFrame x y) :=
  inferInstanceAs (Decidable (_ ∨ _))

section Source

variable {ε : Type}

/-- `3 * (y as usize * frame.width as usize + x as usize)`. -/
def pxOffset (frame : Rgb24Frame) (x y : Int) : Outcome ε Nat := do
  let row ← u64Mul y.toNat frame.width.toNat
  let index ← u64Add row x.toNat
  u64Mul 3 index

def putPx (frame : Rgb24Frame) (x y : Int) (color : Rgb) : Outcome ε Rgb24Frame :=
  if frame.OutOfFrame x y then pure frame
  else do
    let off ← pxOffset frame x y
    let stop ← u64Add off 3
    let pixels ← copyFromSlice frame.pixels off stop color.bytes
    pure { frame with pixels }

def blendAt (off : Nat) (alpha : UInt8) (c : Nat) (fg : UInt8) (pixels : Bytes) :
    Outcome ε Bytes := do
  let i ← u64Add off c
  let bg ← Outcome.expect pixels[i]?
  pure (pixels.set i (blend fg bg alpha))

def putPxAlpha (frame : Rgb24Frame) (x y : Int) (color : Rgb) (alpha : UInt8) :
    Outcome ε Rgb24Frame :=
  if frame.OutOfFrame x y then pure frame
  else do
    let off ← pxOffset frame x y
    let pixels ← forEach (blendAt off alpha) 0 color.bytes frame.pixels
    pure { frame with pixels }

def rectRow (px : Rgb24Frame → Int → Int → Outcome ε Rgb24Frame) (x w yy : Int)
    (frame : Rgb24Frame) : Outcome ε Rgb24Frame := do
  let xEnd ← i64 (x + w)
  forInt (fun xx frame => px frame xx yy) frame x xEnd

/-- `for yy in y..y + h { for xx in x..x + w { px(xx, yy) } }`. -/
def forRect (px : Rgb24Frame → Int → Int → Outcome ε Rgb24Frame) (frame : Rgb24Frame)
    (x y w h : Int) : Outcome ε Rgb24Frame := do
  let yEnd ← i64 (y + h)
  forInt (rectRow px x w) frame y yEnd

def fillRect (frame : Rgb24Frame) (x y w h : Int) (color : Rgb) : Outcome ε Rgb24Frame :=
  forRect (fun frame xx yy => putPx frame xx yy color) frame x y w h

def fillRectAlpha (frame : Rgb24Frame) (x y w h : Int) (color : Rgb) (alpha : UInt8) :
    Outcome ε Rgb24Frame :=
  forRect (fun frame xx yy => putPxAlpha frame xx yy color alpha) frame x y w h

def rectOutline (frame : Rgb24Frame) (x y w h t : Int) (color : Rgb) : Outcome ε Rgb24Frame := do
  let frame ← fillRect frame x y w t color
  let bottom ← i64 (y + h)
  let bottom ← i64 (bottom - t)
  let frame ← fillRect frame x bottom w t color
  let frame ← fillRect frame x y t h color
  let right ← i64 (x + w)
  let right ← i64 (right - t)
  fillRect frame right y t h color

end Source

/-! ### What the primitives paint -/

/-- The operation gives the points of a set the colour, where the frame has
them, and leaves the others alone. -/
abbrev Colors {ε : Type} (width height : UInt32) (color : Rgb) :
    Set (Int × Int) → (Rgb24Frame → Outcome ε Rgb24Frame) → Prop :=
  Paints (Rgb24Frame.Sized width height) Rgb24Frame.pixelAt
    fun _ => Option.map fun _ => color.bytes

/-- The operation leaves the points outside a set alone. -/
abbrev Marks {ε : Type} (width height : UInt32) :
    Set (Int × Int) → (Rgb24Frame → Outcome ε Rgb24Frame) → Prop :=
  Touches (Rgb24Frame.Sized width height) Rgb24Frame.pixelAt

/-- The sum of the products is a 16-bit number, and the quotient a byte. -/
theorem toNat_blend (fg bg a : UInt8) :
    (blend fg bg a).toNat = (a.toNat * fg.toNat + (255 - a.toNat) * bg.toNat + 127) / 255 := by
  have ha := a.toNat_lt
  have hfg : a.toNat * fg.toNat ≤ a.toNat * 255 := Nat.mul_le_mul_left _ (by
    have := fg.toNat_lt
    omega)
  have hbg : (255 - a.toNat) * bg.toNat ≤ (255 - a.toNat) * 255 := Nat.mul_le_mul_left _ (by
    have := bg.toNat_lt
    omega)
  have hsub : (255 - a).toNat = 255 - a.toNat := by
    rw [UInt8.toNat_sub_of_le _ _ (UInt8.le_iff_toNat_le.mpr (by
      show a.toNat ≤ 255
      omega))]
    rfl
  simp only [blend, UInt16.toNat_toUInt8, UInt16.toNat_div, UInt16.toNat_add, UInt16.toNat_mul,
    UInt8.toNat_toUInt16, hsub, UInt16.reduceToNat]
  omega

theorem color_idem (color : Rgb) (_ : Int × Int) (px : Option Bytes) :
    Option.map (fun _ => color.bytes) (Option.map (fun _ => color.bytes) px) =
      Option.map (fun _ => color.bytes) px := by
  cases px <;> rfl

section Primitives

variable {ε : Type} {width height : UInt32} {color : Rgb}

theorem outOfFrame_iff {f : Rgb24Frame} (hf : f.Sized width height) {x y : Int} :
    f.OutOfFrame x y ↔ (x, y) ∉ rect 0 0 width.toNat height.toNat := by
  rw [Rgb24Frame.OutOfFrame, hf.width_eq, hf.height_eq, mem_rect]
  simp only
  omega

theorem pxOffset_eq {f : Rgb24Frame} (hf : f.Sized width height) {x y : Nat}
    (hx : x + 1 ≤ width.toNat) (hy : y < height.toNat) :
    (pxOffset f x y : Outcome ε Nat) = .ok (3 * (y * width.toNat + x)) := by
  have hroom := Rgb24Frame.Sized.offset_le hx hy
  have hlt := hf.size_lt
  rw [pxOffset, hf.width_eq, Int.toNat_natCast, Int.toNat_natCast, u64Mul_of_lt (by omega),
    ok_bind, u64Add_of_lt (by omega), ok_bind, u64Mul_of_lt (by omega)]

theorem putPx_colors (x y : Int) :
    Colors (ε := ε) width height color {(x, y)} fun frame => putPx frame x y color := by
  intro f hf
  by_cases hout : f.OutOfFrame x y
  · refine ⟨f, if_pos hout, hf, ?_, fun _ _ => rfl⟩
    rintro p rfl
    rw [hf.pixelAt_of_notMem ((outOfFrame_iff hf).mp hout)]
    rfl
  · have hin : (x, y) ∈ rect 0 0 width.toNat height.toNat := by
      rwa [outOfFrame_iff hf, not_not] at hout
    have hbounds := mem_rect.mp hin
    obtain ⟨x, rfl⟩ := Int.eq_ofNat_of_zero_le hbounds.1.1
    obtain ⟨y, rfl⟩ := Int.eq_ofNat_of_zero_le hbounds.2.1
    have hx : x + 1 ≤ width.toNat := by omega
    have hy : y < height.toNat := by omega
    obtain ⟨pixels, hcopy, hsized, hpixel, hkeep⟩ :=
      hf.copyRow (ε := ε) hx hy (show color.bytes.length = 3 * 1 from rfl)
    have hroom := Rgb24Frame.Sized.offset_le hx hy
    have hlt := hf.size_lt
    have hone : rect x y 1 1 = {((x : Int), (y : Int))} := by
      ext p
      rw [mem_rect, Set.mem_singleton_iff, Prod.ext_iff]
      omega
    rw [Nat.cast_one, hone] at hpixel hkeep
    refine ⟨_, ?_, hsized, ?_, hkeep⟩
    · show putPx f x y color = _
      rw [putPx, if_neg hout, pxOffset_eq hf hx hy, ok_bind, u64Add_of_lt (by omega), ok_bind,
        hcopy, ok_bind, pure_eq]
    · rintro p rfl
      rw [hpixel rfl, hf.pixelAt_of_mem hin]
      simp only [Int.sub_self]
      rfl

/-- The blend of a pixel writes its three bytes. -/
theorem blendAt_keeps (color : Rgb) (alpha : UInt8) {pixels : Bytes} {off : Nat}
    (hroom : off + 3 ≤ pixels.length) (halloc : pixels.length < u64Bound) :
    ∃ pixels', (forEach (blendAt off alpha) 0 color.bytes pixels : Outcome ε Bytes) = .ok pixels' ∧
      pixels'.length = pixels.length ∧
      ∀ j, ¬(off ≤ j ∧ j < off + 3) → pixels'[j]? = pixels[j]? := by
  have hchannel : ∀ c fg, color.bytes[c]? = some fg → ∀ pixels' : Bytes,
      (pixels'.length = pixels.length ∧
        ∀ j, ¬(off ≤ j ∧ j < off + 3) → pixels'[j]? = pixels[j]?) →
      ∃ pixels'', (blendAt off alpha (0 + c) fg pixels' : Outcome ε Bytes) = .ok pixels'' ∧
        pixels''.length = pixels.length ∧
        ∀ j, ¬(off ≤ j ∧ j < off + 3) → pixels''[j]? = pixels[j]? := by
    rintro c fg hc pixels' ⟨hlen, hkeep⟩
    have hlt : c < 3 := (List.getElem?_eq_some_iff.mp hc).1
    have hbg := List.getElem?_eq_getElem (show off + c < pixels'.length by omega)
    rw [Nat.zero_add, blendAt, u64Add_of_lt (by omega), ok_bind, hbg, expect_some, ok_bind]
    refine ⟨_, rfl, (List.length_set ..).trans hlen, fun j hj => ?_⟩
    rw [List.getElem?_set_ne (by omega), hkeep j hj]
  exact forEach_inv (P := fun _ pixels' => pixels'.length = pixels.length ∧
    ∀ j, ¬(off ≤ j ∧ j < off + 3) → pixels'[j]? = pixels[j]?) ⟨rfl, fun _ _ => rfl⟩ hchannel

theorem putPxAlpha_marks (x y : Int) (alpha : UInt8) :
    Marks (ε := ε) width height {(x, y)} fun frame => putPxAlpha frame x y color alpha := by
  intro f hf
  by_cases hout : f.OutOfFrame x y
  · exact ⟨f, if_pos hout, hf, fun _ _ => rfl⟩
  · have hbounds : (x, y) ∈ rect 0 0 width.toNat height.toNat := by
      rwa [outOfFrame_iff hf, not_not] at hout
    rw [mem_rect] at hbounds
    obtain ⟨x, rfl⟩ := Int.eq_ofNat_of_zero_le hbounds.1.1
    obtain ⟨y, rfl⟩ := Int.eq_ofNat_of_zero_le hbounds.2.1
    have hx : x + 1 ≤ width.toNat := by omega
    have hy : y < height.toNat := by omega
    have hroom := Rgb24Frame.Sized.offset_le hx hy
    rw [← hf.length_eq] at hroom
    obtain ⟨pixels, hblend, hlen, hkeep⟩ :=
      blendAt_keeps (ε := ε) color alpha hroom (hf.length_eq ▸ hf.size_lt)
    refine ⟨{ f with pixels }, ?_, hf.withPixels hlen, ?_⟩
    · show putPxAlpha f x y color alpha = _
      rw [putPxAlpha, if_neg hout, pxOffset_eq hf hx hy, ok_bind, hblend, ok_bind, pure_eq]
    · refine (hf.eqOn_pixelAt hlen hx hkeep).mono (Set.compl_subset_compl.mpr ?_)
      intro p hp
      rw [mem_rect] at hp
      rw [Set.mem_singleton_iff, Prod.ext_iff]
      simp only
      omega

variable (x y w h t : Int)

theorem forRect_colors {px : Rgb24Frame → Int → Int → Outcome ε Rgb24Frame}
    (hpx : ∀ xx yy, Colors width height color {(xx, yy)} fun frame => px frame xx yy)
    (hw : -2 ^ 63 ≤ x + w ∧ x + w < 2 ^ 63) (hh : -2 ^ 63 ≤ y + h ∧ y + h < 2 ^ 63) :
    Colors width height color (rect x y w h) fun frame => forRect px frame x y w h := by
  have hrow : ∀ yy, Colors width height color
      {p | ∃ xx, (x ≤ xx ∧ xx < x + w) ∧ p ∈ ({(xx, yy)} : Set (Int × Int))}
      (rectRow px x w yy) := fun yy =>
    Paints.after (fun _ _ => i64_of_bounds hw.1 hw.2)
      (Paints.forInt (color_idem color) fun xx _ _ => hpx xx yy)
  have hrows : Colors width height color (rect x y w h) fun frame =>
      forInt (rectRow px x w) frame y (y + h) := by
    have hunion := Paints.forInt (color_idem color)
      fun yy (_ : y ≤ yy) (_ : yy < y + h) => hrow yy
    have hset : {p | ∃ yy, (y ≤ yy ∧ yy < y + h) ∧
        p ∈ {p | ∃ xx, (x ≤ xx ∧ xx < x + w) ∧ p ∈ ({(xx, yy)} : Set (Int × Int))}} =
          rect x y w h := by
      ext ⟨a, b⟩
      simp only [Set.mem_ofPred_eq, Set.mem_singleton_iff, Prod.mk.injEq, mem_rect]
      constructor
      · rintro ⟨yy, hy, xx, hx, rfl, rfl⟩
        exact ⟨hx, hy⟩
      · rintro ⟨hx, hy⟩
        exact ⟨b, hy, a, hx, rfl, rfl⟩
    rwa [hset] at hunion
  exact Paints.after (fun _ _ => i64_of_bounds hh.1 hh.2) hrows

theorem forRect_marks {px : Rgb24Frame → Int → Int → Outcome ε Rgb24Frame}
    (hpx : ∀ xx yy, Marks width height {(xx, yy)} fun frame => px frame xx yy)
    (hw : -2 ^ 63 ≤ x + w ∧ x + w < 2 ^ 63) (hh : -2 ^ 63 ≤ y + h ∧ y + h < 2 ^ 63) :
    Marks width height (rect x y w h) fun frame => forRect px frame x y w h := by
  have hrow : ∀ yy, y ≤ yy → yy < y + h →
      Marks width height (rect x y w h) (rectRow px x w yy) := by
    intro yy hy hy'
    refine Touches.after (fun _ _ => i64_of_bounds hw.1 hw.2) (Touches.forInt fun xx hx hx' => ?_)
    exact (hpx xx yy).mono (Set.singleton_subset_iff.mpr ⟨⟨hx, hx'⟩, hy, hy'⟩)
  exact Touches.after (fun _ _ => i64_of_bounds hh.1 hh.2) (Touches.forInt hrow)

theorem fillRect_colors (color : Rgb) (hw : -2 ^ 63 ≤ x + w ∧ x + w < 2 ^ 63)
    (hh : -2 ^ 63 ≤ y + h ∧ y + h < 2 ^ 63) :
    Colors (ε := ε) width height color (rect x y w h) fun frame =>
      fillRect frame x y w h color :=
  forRect_colors x y w h (fun xx yy => putPx_colors xx yy) hw hh

theorem fillRectAlpha_marks (color : Rgb) (alpha : UInt8) (hw : -2 ^ 63 ≤ x + w ∧ x + w < 2 ^ 63)
    (hh : -2 ^ 63 ≤ y + h ∧ y + h < 2 ^ 63) :
    Marks (ε := ε) width height (rect x y w h) fun frame =>
      fillRectAlpha frame x y w h color alpha :=
  forRect_marks x y w h (fun xx yy => putPxAlpha_marks xx yy alpha) hw hh

theorem rectOutline_marks (color : Rgb) (hx : -2 ^ 62 ≤ x ∧ x < 2 ^ 62)
    (hy : -2 ^ 62 ≤ y ∧ y < 2 ^ 62) (ht : 0 ≤ t) (hw : t ≤ w ∧ w < 2 ^ 62)
    (hh : t ≤ h ∧ h < 2 ^ 62) :
    Marks (ε := ε) width height (rect x y w h) fun frame => rectOutline frame x y w h t color := by
  have hside : ∀ x' y' w' h', x ≤ x' → y ≤ y' → x' + w' ≤ x + w → y' + h' ≤ y + h →
      0 ≤ w' → 0 ≤ h' → Marks (ε := ε) width height (rect x y w h) fun frame =>
        fillRect frame x' y' w' h' color := by
    intro x' y' w' h' hx' hy' hw' hh' hw0 hh0
    exact (fillRect_colors x' y' w' h' color (by omega) (by omega)).touches
      (rect_subset hx' hy' hw' hh')
  refine (hside x y w t (by omega) (by omega) (by omega) (by omega) (by omega) ht).seq ?_
  refine .after (fun _ _ => i64_of_bounds (by omega) (by omega)) ?_
  refine .after (fun _ _ => i64_of_bounds (by omega) (by omega)) ?_
  refine (hside x (y + h - t) w t (by omega) (by omega) (by omega) (by omega) (by omega) ht).seq ?_
  refine (hside x y t h (by omega) (by omega) (by omega) (by omega) ht (by omega)).seq ?_
  refine .after (fun _ _ => i64_of_bounds (by omega) (by omega)) ?_
  refine .after (fun _ _ => i64_of_bounds (by omega) (by omega)) ?_
  exact hside (x + w - t) y t h (by omega) (by omega) (by omega) (by omega) ht (by omega)

end Primitives

end ReplayRenderer
