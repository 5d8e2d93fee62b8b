import ReplayRenderer.Overlay.Draw

/-!
The embedded 8×8 bitmap font. Text stays on its line: a character does not
leave its square, and the squares of a string stand side by side.
-/

namespace ReplayRenderer

open Lib Lib.Outcome

/-- The glyphs of the printable characters from `!` to `~`, their rows from
the top in the digits of a number. -/
def printableGlyphs : List Nat :=
  [0x183c3c1818001800, 0x6c6c000000000000, 0x6c6cfe6cfe6c6c00, 0x307cc0780cf83000,
   0x00c6cc183066c600, 0x386c3876dccc7600, 0x6060c00000000000, 0x1830606060301800,
   0x6030181818306000, 0x00663cff3c660000, 0x003030fc30300000, 0x0000000000303060,
   0x000000fc00000000, 0x0000000000303000, 0x060c183060c08000, 0x7cc6cedef6e67c00,
   0x307030303030fc00, 0x78cc0c3860ccfc00, 0x78cc0c380ccc7800, 0x1c3c6cccfe0c1e00,
   0xfcc0f80c0ccc7800, 0x3860c0f8cccc7800, 0xfccc0c1830303000, 0x78cccc78cccc7800,
   0x78cccc7c0c187000, 0x0030300000303000, 0x0030300000303060, 0x183060c060301800,
   0x0000fc0000fc0000, 0x6030180c18306000, 0x78cc0c1830003000, 0x7cc6dededec07800,
   0x3078ccccfccccc00, 0xfc66667c6666fc00, 0x3c66c0c0c0663c00, 0xf86c6666666cf800,
   0xfe6268786862fe00, 0xfe6268786860f000, 0x3c66c0c0ce663e00, 0xccccccfccccccc00,
   0x7830303030307800, 0x1e0c0c0ccccc7800, 0xe6666c786c66e600, 0xf06060606266fe00,
   0xc6eefefed6c6c600, 0xc6e6f6decec6c600, 0x386cc6c6c66c3800, 0xfc66667c6060f000,
   0x78ccccccdc781c00, 0xfc66667c6c66e600, 0x78cce0701ccc7800, 0xfcb4303030307800,
   0xccccccccccccfc00, 0xcccccccccc783000, 0xc6c6c6d6feeec600, 0xc6c66c38386cc600,
   0xcccccc7830307800, 0xfec68c183266fe00, 0x7860606060607800, 0xc06030180c060200,
   0x7818181818187800, 0x10386cc600000000, 0x00000000000000ff, 0x3030180000000000,
   0x0000780c7ccc7600, 0xe060607c6666dc00, 0x000078ccc0cc7800, 0x1c0c0c7ccccc7600,
   0x000078ccfcc07800, 0x386c60f06060f000, 0x000076cccc7c0cf8, 0xe0606c766666e600,
   0x3000703030307800, 0x0c000c0c0ccccc78, 0xe060666c786ce600, 0x7030303030307800,
   0x0000ccfefed6c600, 0x0000f8cccccccc00, 0x000078cccccc7800, 0x0000dc66667c60f0,
   0x000076cccc7c0c1e, 0x0000dc766660f000, 0x00007cc0780cf800, 0x10307c3030341800,
   0x0000cccccccc7600, 0x0000cccccc783000, 0x0000c6d6fefe6c00, 0x0000c66c386cc600,
   0x0000cccccc7c0cf8, 0x0000fc983064fc00, 0x1c3030e030301c00, 0x1818180018181800,
   0xe030301c3030e000, 0x76dc000000000000]

/-- `assets/font8x8.psf`: the header, then 256 glyphs of eight bytes. -/
def fontPsf : Bytes :=
  [0x36, 0x04, 0x00, 0x08] ++ zeros (33 * 8) ++
    printableGlyphs.flatMap (fun g => (leBytes 8 g).reverse) ++ zeros (129 * 8)

def glyphBytes : Nat := 8
def fontHeader : Nat := 4

section Source

variable {ε : Type}

/-- The eight rows of an ASCII glyph; any other character is glyph 0. -/
def glyph (c : Char) : Outcome ε Bytes :=
  let idx := if c.toNat < 128 then c.toNat else 0
  slice fontPsf (fontHeader + idx * glyphBytes) (fontHeader + (idx + 1) * glyphBytes)

def drawDot (x y : Int) (color : Rgb) (s : Int) (row col : Nat) (frame : Rgb24Frame) :
    Outcome ε Rgb24Frame :=
  forInt (fun dy frame => forInt (fun dx frame => do
    let left ← i64 (col * s)
    let left ← i64 (x + left)
    let xx ← i64 (left + dx)
    let top ← i64 (row * s)
    let top ← i64 (y + top)
    let yy ← i64 (top + dy)
    putPx frame xx yy color) frame 0 s) frame 0 s

def drawGlyphRow (x y : Int) (color : Rgb) (s : Int) (row : Nat) (bits : UInt8)
    (frame : Rgb24Frame) : Outcome ε Rgb24Frame :=
  forRange (fun col frame =>
    if bits &&& (0x80 >>> UInt8.ofNat col) ≠ 0 then drawDot x y color s row col frame
    else pure frame) frame 8

def drawChar (frame : Rgb24Frame) (x y : Int) (c : Char) (color : Rgb) (s : Int) :
    Outcome ε Rgb24Frame := do
  let g ← glyph c
  forEach (drawGlyphRow x y color s) 0 g frame

def drawChars (y : Int) (color : Rgb) (s : Int) :
    List Char → Int → Rgb24Frame → Outcome ε (Rgb24Frame × Int)
  | [], cx, frame => .ok (frame, cx)
  | c :: cs, cx, frame => do
    let frame ← drawChar frame cx y c color s
    let advance ← i64 (8 * s)
    let cx ← i64 (cx + advance)
    drawChars y color s cs cx frame

/-- The frame, and how far the pen has moved. -/
def drawText (frame : Rgb24Frame) (x y : Int) (text : String) (color : Rgb) (s : Int) :
    Outcome ε (Rgb24Frame × Int) := do
  let (frame, cx) ← drawChars y color s text.toList x frame
  let advance ← i64 (cx - x)
  pure (frame, advance)

def textWidth (text : String) (s : Int) : Outcome ε Int := do
  let advance ← i64 (8 * s)
  i64 (advance * text.length)

end Source

/-! ### Where text goes -/

theorem length_fontPsf : fontPsf.length = 2052 := by
  decide +kernel

section Text

variable {ε : Type} {width height : UInt32} {x y s : Int}

theorem exists_glyph (c : Char) : ∃ g, (glyph c : Outcome ε Bytes) = .ok g ∧ g.length = 8 := by
  have hidx : (if c.toNat < 128 then c.toNat else 0) < 128 := by
    split
    · assumption
    · decide
  generalize hi : (if c.toNat < 128 then c.toNat else 0) = idx at hidx
  obtain ⟨g, hslice, hlen⟩ := exists_slice (ε := ε) fontPsf (fontHeader + idx * glyphBytes)
    (fontHeader + (idx + 1) * glyphBytes) (by unfold glyphBytes; omega)
    (by rw [length_fontPsf]; unfold fontHeader glyphBytes; omega)
  refine ⟨g, by rw [glyph, hi]; exact hslice, ?_⟩
  rw [hlen]
  unfold glyphBytes
  omega

section Char

variable (hx : -2 ^ 60 ≤ x ∧ x ≤ 2 ^ 60) (hy : -2 ^ 60 ≤ y ∧ y ≤ 2 ^ 60)
  (hs : 0 ≤ s ∧ s ≤ 2 ^ 40)

include hx hy hs

theorem drawDot_marks (color : Rgb) {row col : Nat} (hrow : row < 8) (hcol : col < 8) :
    Marks (ε := ε) width height (rect x y (8 * s) (8 * s)) (drawDot x y color s row col) := by
  have hleft : 0 ≤ (col : Int) * s ∧ (col : Int) * s ≤ 7 * s :=
    ⟨mul_nonneg (by omega) hs.1, mul_le_mul_of_nonneg_right (by omega) hs.1⟩
  have htop : 0 ≤ (row : Int) * s ∧ (row : Int) * s ≤ 7 * s :=
    ⟨mul_nonneg (by omega) hs.1, mul_le_mul_of_nonneg_right (by omega) hs.1⟩
  refine Touches.forInt fun dy hdy hdy' => Touches.forInt fun dx hdx hdx' => ?_
  refine .after (fun _ _ => i64_of_bounds (by omega) (by omega)) ?_
  refine .after (fun _ _ => i64_of_bounds (by omega) (by omega)) ?_
  refine .after (fun _ _ => i64_of_bounds (by omega) (by omega)) ?_
  refine .after (fun _ _ => i64_of_bounds (by omega) (by omega)) ?_
  refine .after (fun _ _ => i64_of_bounds (by omega) (by omega)) ?_
  refine .after (fun _ _ => i64_of_bounds (by omega) (by omega)) ?_
  refine (putPx_colors _ _).touches (Set.singleton_subset_iff.mpr ?_)
  rw [mem_rect]
  simp only
  omega

theorem drawChar_marks (color : Rgb) (c : Char) :
    Marks (ε := ε) width height (rect x y (8 * s) (8 * s)) fun frame =>
      drawChar frame x y c color s := by
  obtain ⟨g, hglyph, hlen⟩ := exists_glyph (ε := ε) c
  refine .after (fun _ _ => hglyph) (Touches.forEach fun row bits hbits => ?_)
  have hrow : row < 8 := hlen ▸ (List.getElem?_eq_some_iff.mp hbits).1
  rw [Nat.zero_add]
  refine Touches.forRange fun col hcol => Touches.ite (fun _ => ?_) fun _ => .nothing
  exact drawDot_marks hx hy hs color hrow hcol

end Char

/-- The pen ends behind the last square. -/
theorem drawChars_spec (color : Rgb) (hy : -2 ^ 60 ≤ y ∧ y ≤ 2 ^ 60)
    (hs : 0 ≤ s ∧ s ≤ 2 ^ 40) {cs : List Char} {cx : Int} (hcx : -2 ^ 60 ≤ cx)
    (hend : cx + 8 * s * cs.length ≤ 2 ^ 60) {f : Rgb24Frame} (hf : f.Sized width height) :
    ∃ f', (drawChars y color s cs cx f : Outcome ε _) = .ok (f', cx + 8 * s * cs.length) ∧
      f'.Sized width height ∧
      Set.EqOn f'.pixelAt f.pixelAt (rect cx y (8 * s * cs.length) (8 * s))ᶜ := by
  induction cs generalizing cx f with
  | nil => exact ⟨f, by simp [drawChars], hf, fun _ _ => rfl⟩
  | cons c cs ih =>
      have hsplit : 8 * s * ((c :: cs).length : Int) = 8 * s + 8 * s * cs.length := by
        rw [List.length_cons]
        push_cast
        ring
      have hrest : 0 ≤ 8 * s * (cs.length : Int) := mul_nonneg (by omega) (by omega)
      rw [hsplit] at hend ⊢
      obtain ⟨f₁, hchar, hf₁, heq₁⟩ :=
        drawChar_marks (ε := ε) ⟨hcx, by omega⟩ hy hs color c f hf
      have hpen : -2 ^ 60 ≤ cx + 8 * s := by omega
      obtain ⟨f₂, hchars, hf₂, heq₂⟩ := ih hpen (by omega) hf₁
      refine ⟨f₂, ?_, hf₂, ?_⟩
      · rw [drawChars, show drawChar f cx y c color s = .ok f₁ from hchar, ok_bind,
          i64_of_bounds (by omega) (by omega), ok_bind, i64_of_bounds (by omega) (by omega),
          ok_bind, hchars, add_assoc]
      · refine (heq₂.mono ?_).trans (heq₁.mono ?_)
        · exact Set.compl_subset_compl.mpr (rect_subset (by omega) (by omega) (by omega) (by omega))
        · exact Set.compl_subset_compl.mpr (rect_subset (by omega) (by omega) (by omega) (by omega))

theorem drawText_marks (color : Rgb) (text : String) (hx : -2 ^ 60 ≤ x)
    (hy : -2 ^ 60 ≤ y ∧ y ≤ 2 ^ 60) (hs : 0 ≤ s ∧ s ≤ 2 ^ 40)
    (hend : x + 8 * s * text.length ≤ 2 ^ 60) (hlen : 8 * s * text.length ≤ 2 ^ 60) :
    Marks (ε := ε) width height (rect x y (8 * s * text.length) (8 * s)) fun frame =>
      drawText frame x y text color s >>= fun drawn => pure drawn.1 := by
  intro f hf
  have hpos : 0 ≤ 8 * s * (text.length : Int) := mul_nonneg (by omega) (by omega)
  rw [← String.length_toList] at hend hlen hpos ⊢
  obtain ⟨f', hchars, hf', heq⟩ := drawChars_spec (ε := ε) color hy hs hx hend hf
  refine ⟨f', ?_, hf', heq⟩
  simp only [drawText, hchars, ok_bind, i64_of_bounds (ε := ε)
    (show -2 ^ 63 ≤ x + 8 * s * (text.toList.length : Int) - x by omega) (by omega), pure_eq]

theorem textWidth_eq {text : String} (hs : 0 ≤ s ∧ s ≤ 2 ^ 40)
    (hlen : 8 * s * text.length ≤ 2 ^ 60) :
    (textWidth text s : Outcome ε Int) = .ok (8 * s * text.length) := by
  have hpos : 0 ≤ 8 * s * (text.length : Int) := mul_nonneg (by omega) (by omega)
  rw [textWidth, i64_of_bounds (by omega) (by omega), ok_bind,
    i64_of_bounds (by omega) (by omega)]

end Text

/-! ### The length of a number -/

theorem length_toString_le {n k : Nat} (hk : 0 < k) (hn : n < 10 ^ k) : (toString n).length ≤ k :=
  (Nat.length_repr_le_iff hk).mpr hn

theorem length_toString_u64 (n : UInt64) : (toString n.toNat).length ≤ 20 :=
  length_toString_le (by decide) (n.toNat_lt.trans (by decide))

theorem length_toString_u32 (n : UInt32) : (toString n.toNat).length ≤ 10 :=
  length_toString_le (by decide) (n.toNat_lt.trans (by decide))

end ReplayRenderer
