import ReplayRenderer.Lib.Decimal
import ReplayRenderer.Overlay.Composed

/-!
What can be read off a composed frame. The counter is white on a box that is at
most half as bright, whatever was below, and nothing is drawn over its line: the
glyphs, and by them the frame index and the time in milliseconds, are in the
pixels. A button of the controller shows whether it is held by the corner of its
cell.
-/

namespace ReplayRenderer

open Lib Lib.Outcome

/-! ### Dots of a text -/

def dotAt (x y s : Int) (row col : Fin 8) : Int × Int := (x + col * s, y + row * s)

/-- A multiple that lies in the square of a multiple is that multiple. -/
theorem eq_of_mul_mem_square {i j s : Int} (hle : j * s ≤ i * s) (hlt : i * s < j * s + s) :
    i = j := by
  have hs : 0 < s := by omega
  have hge : j ≤ i := Int.le_of_mul_le_mul_right hle hs
  have hlt' : i < j + 1 := by
    apply Int.lt_of_mul_lt_mul_right _ hs.le
    rwa [add_mul, one_mul]
  omega

/-- The dots of a line of text are those of its glyphs, each where it stands. -/
theorem dotAt_mem_charDots_iff {cs : List Char} {x y s : Int} (hs : 0 < s) (k : Fin cs.length)
    (row col : Fin 8) :
    dotAt (x + 8 * s * k) y s row col ∈ charDots cs x y s ↔ glyphBit cs[k] row col = true := by
  constructor
  · rintro ⟨k', row', col', hbit, hp⟩
    simp only [dotAt, mem_rect] at hp
    -- the columns of all glyphs in one row, eight to a glyph
    have hcol : 8 * (k : Int) + col = 8 * k' + col' := by
      apply eq_of_mul_mem_square (s := s)
      · linarith
      · linarith
    have hrow : (row : Int) = row' := by
      apply eq_of_mul_mem_square (s := s)
      · linarith
      · linarith
    obtain rfl : k = k' := by
      ext
      omega
    obtain rfl : col = col' := by
      ext
      omega
    obtain rfl : row = row' := by
      ext
      omega
    exact hbit
  · intro hbit
    refine ⟨k, row, col, hbit, ?_⟩
    rw [dotAt, mem_rect]
    simp only
    omega

theorem charDots_subset {cs : List Char} {x y s : Int} (hs : 0 ≤ s) :
    charDots cs x y s ⊆ {p | y ≤ p.2 ∧ p.2 < y + 8 * s} := by
  rintro p ⟨k, row, col, -, hp⟩
  rw [mem_rect] at hp
  have htop : 0 ≤ (row : Int) * s := mul_nonneg (by omega) hs
  have hbottom : (row : Int) * s ≤ 7 * s := mul_le_mul_of_nonneg_right (by omega) hs
  show _ ∧ _
  omega

/-! ### The text of the counter -/

def counterChars : List Char :=
  ['F', 'T', 's', ' ', '.', '0', '1', '2', '3', '4', '5', '6', '7', '8', '9']

theorem glyphRows_eq_of_glyphBit {c c' : Char}
    (h : ∀ row col, glyphBit c row col = glyphBit c' row col) : glyphRows c = glyphRows c' := by
  have hlen : ∀ c, (glyphRows c).length = 8 := by
    intro c
    obtain ⟨g, hglyph, hlen⟩ := exists_glyph (ε := Empty) c
    rwa [← Outcome.ok.inj (hglyph.symm.trans (glyph_eq c))]
  apply List.ext_getElem
  · rw [hlen, hlen]
  · intro row hrow hrow'
    rw [hlen] at hrow
    apply UInt8.toNat_inj.mp
    apply Nat.eq_of_testBit_eq
    intro i
    by_cases hi : i < 8
    · have hbit := h ⟨row, hrow⟩ ⟨7 - i, by omega⟩
      simp only [glyphBit, List.getD_eq_getElem?_getD, List.getElem?_eq_getElem, hlen, hrow,
        Option.getD_some, show 7 - (7 - i) = i by omega] at hbit
      exact hbit
    · have hbyte : ∀ b : UInt8, b.toNat.testBit i = false := fun b =>
        Nat.testBit_lt_two_pow (b.toNat_lt.trans_le (Nat.pow_le_pow_right (by omega) (by omega)))
      rw [hbyte, hbyte]

theorem nodup_glyphRows : (counterChars.map glyphRows).Nodup := by
  decide +kernel

/-- No two of these characters look the same. -/
theorem glyphBit_injOn {c c' : Char} (hc : c ∈ counterChars) (hc' : c' ∈ counterChars)
    (h : ∀ row col, glyphBit c row col = glyphBit c' row col) : c = c' :=
  List.inj_on_of_nodup_map nodup_glyphRows hc hc' (glyphRows_eq_of_glyphBit h)

theorem mem_counterChars_of_isDigit {c : Char} (h : c.isDigit = true) : c ∈ counterChars := by
  have hdigits : ∀ d < 10, Char.ofNat (48 + d) ∈ counterChars := by decide
  have hrange : 48 ≤ c.toNat ∧ c.toNat ≤ 57 := by
    simpa [Char.isDigit, UInt32.le_iff_toNat_le] using h
  have hchar := hdigits (c.toNat - 48) (by omega)
  rwa [show 48 + (c.toNat - 48) = c.toNat by omega, Char.ofNat_toNat] at hchar

theorem toList_pushn (s : String) (c : Char) (n : Nat) :
    (s.pushn c n).toList = s.toList ++ List.replicate n c := by
  rw [String.pushn_eq_repeat_push]
  induction n with
  | zero => simp [Nat.repeat]
  | succ n ih => simp [Nat.repeat, ih, List.replicate_succ']

def padded (n : Nat) : List Char :=
  List.replicate (3 - (Nat.toDigits 10 n).length) '0' ++ Nat.toDigits 10 n

theorem toList_counterText (frameIndex vns : UInt64) :
    (counterText frameIndex vns).toList =
      'F' :: (Nat.toDigits 10 frameIndex.toNat ++ ' ' :: 'T' ::
        (Nat.toDigits 10 (vns.toNat / 1000000 / 1000) ++ '.' ::
          (padded (vns.toNat / 1000000 % 1000) ++ ['s']))) := by
  simp [counterText, pad3, padded, toList_pushn, ← String.length_toList]

theorem mem_counterChars {frameIndex vns : UInt64} {c : Char}
    (hc : c ∈ (counterText frameIndex vns).toList) : c ∈ counterChars := by
  have hdigit : ∀ n, c ∈ Nat.toDigits 10 n → c ∈ counterChars := fun n hmem =>
    mem_counterChars_of_isDigit (isDigit_of_mem_repr hmem)
  simp only [toList_counterText, padded, List.mem_cons, List.mem_append, List.mem_replicate,
    List.not_mem_nil, or_false] at hc
  rcases hc with rfl | hc | rfl | rfl | hc | rfl | (⟨-, rfl⟩ | hc) | rfl
  all_goals first | exact hdigit _ hc | decide

/-- The text begins with the only `F` it has. -/
theorem notMem_tail_counterText (frameIndex vns : UInt64) :
    'F' ∉ (counterText frameIndex vns).toList.tail := by
  have hdigit := notMem_repr (show 'F'.isDigit = false by decide)
  simp [toList_counterText, padded, hdigit]

theorem ofDigitChars_padded (n : Nat) : Nat.ofDigitChars 10 (padded n) 0 = n := by
  simp [padded, Nat.ofDigitChars_append]

/-- The text says the frame index, and the time up to the millisecond. -/
theorem counterText_inj {frameIndex frameIndex' vns vns' : UInt64}
    (h : (counterText frameIndex vns).toList = (counterText frameIndex' vns').toList) :
    frameIndex = frameIndex' ∧ vns.toNat / 1000000 = vns'.toNat / 1000000 := by
  have hblank := notMem_repr (show ' '.isDigit = false by decide)
  have hpoint := notMem_repr (show '.'.isDigit = false by decide)
  rw [toList_counterText, toList_counterText] at h
  -- the blank ends the index, the point the seconds
  obtain ⟨hindex, -, hrest⟩ := (List.append_cons_inj_of_notMem (hblank _)
    (by simp [padded, hblank])).mp (List.cons.inj h).2
  obtain ⟨hseconds, -, hmillis⟩ := (List.append_cons_inj_of_notMem (hpoint _)
    (by simp [padded, hpoint])).mp (List.cons.inj hrest).2
  have hmillis' := congrArg (fun cs => Nat.ofDigitChars 10 cs 0) (List.append_cancel_right hmillis)
  simp only [ofDigitChars_padded] at hmillis'
  have hseconds' := repr_inj hseconds
  refine ⟨UInt64.toNat_inj.mp (repr_inj hindex), ?_⟩
  omega

/-- Texts that agree from the right, as far as both go, and whose first
character is at their beginning only. -/
theorem eq_of_agree_from_right {c : Char} {cs cs' : List Char} (hc : c ∉ cs) (hc' : c ∉ cs')
    (h : ∀ j < (c :: cs).length, j < (c :: cs').length →
      (c :: cs).reverse[j]? = (c :: cs').reverse[j]?) : cs = cs' := by
  have hsuffix : ∀ ds ds' : List Char, c ∉ ds' → (c :: ds).length ≤ (c :: ds').length →
      (∀ j < (c :: ds).length, (c :: ds).reverse[j]? = (c :: ds').reverse[j]?) → ds = ds' := by
    intro ds ds' hds' hle hagree
    have hprefix : (c :: ds).reverse <+: (c :: ds').reverse := by
      apply List.prefix_iff_getElem?.mpr
      intro j hj
      rw [← hagree j (by simpa using hj), List.getElem?_eq_getElem hj]
    obtain ⟨pre, hpre⟩ := List.reverse_prefix.mp hprefix
    cases pre with
    | nil => exact (List.cons.inj hpre).2
    | cons d pre =>
        refine absurd ?_ hds'
        rw [← (List.cons.inj hpre).2]
        simp
  rcases Nat.le_total (c :: cs).length (c :: cs').length with hle | hle
  · exact hsuffix cs cs' hc' hle fun j hj => h j hj (by omega)
  · exact (hsuffix cs' cs hc hle fun j hj => (h j (by omega) hj).symm).symm

/-! ### The counter in the picture -/

theorem blendOver_black_ne_white (px : Bytes) : blendOver ⟨0, 0, 0⟩ 128 px ≠ [255, 255, 255] := by
  intro hwhite
  cases px with
  | nil => cases hwhite
  | cons bg bgs =>
      have hred := congrArg UInt8.toNat (List.cons.inj hwhite).1
      rw [toNat_blend] at hred
      have hbg := bg.toNat_lt
      simp at hred
      omega

section Counter

variable {width height : UInt32} {s : Int} {ctx : FrameOverlayCtx} {opts : OverlayOptions}
  {strip : Option StripTexture}

theorem boxedLayer_beside (hs : 0 ≤ s) {x y pad : Int} (hpad : 0 ≤ pad) (text : String)
    (color : Rgb) (alpha : UInt8) {p : Int × Int} (hp : p.2 < y - pad ∨ y + 8 * s + pad ≤ p.2)
    (px : Bytes) : boxedLayer x y pad text color alpha s p px = px := by
  have htext : p ∉ charDots text.toList x y s := by
    intro hmem
    have hline := charDots_subset hs hmem
    simp only [Set.mem_ofPred_eq] at hline
    omega
  have hbox : p ∉ rect (x - pad) (y - pad) (8 * s * text.length + 2 * pad) (8 * s + 2 * pad) := by
    rw [mem_rect]
    omega
  rw [boxedLayer, Layer.over, Layer.solid, Layer.tinted, if_neg htext, if_neg hbox]

theorem bannerLayer_beside (hs : 0 ≤ s) (nodeOrd nodeTotal : UInt32) (nodeId : UInt64)
    {p : Int × Int} (hp : p.2 < 11 * s ∨ 25 * s ≤ p.2) (shown : Bool) (px : Bytes) :
    Layer.when shown (bannerLayer width nodeOrd nodeTotal nodeId s) p px = px := by
  cases shown with
  | false => rfl
  | true => exact boxedLayer_beside hs (by omega) _ _ _ (by omega) px

theorem counterLayer_below (hs : 0 ≤ s) (frameIndex vns : UInt64) {p : Int × Int}
    (hp : 12 * s ≤ p.2) (shown : Bool) (px : Bytes) :
    Layer.when shown (counterLayer width frameIndex vns s) p px = px := by
  cases shown with
  | false => rfl
  | true => exact boxedLayer_beside hs (by omega) _ _ _ (by omega) px

/-- In its line, what is white in the box of the counter is its text. -/
theorem overlayLayer_white_iff (hs : 0 < s) (hcounter : opts.frameCounter = true) {p : Int × Int}
    (hline : p.2 < 11 * s) (hbox : p ∈ counterArea width (counterText ctx.frameIndex ctx.vns) s)
    (px : Bytes) :
    overlayLayer width height s ctx opts strip p px = [255, 255, 255] ↔
      p ∈ charDots (counterText ctx.frameIndex ctx.vns).toList
        (width.toNat - 8 * s * (counterText ctx.frameIndex ctx.vns).length - 3 * (2 * s))
        (2 * s) s := by
  obtain ⟨shown, below, hlayers⟩ : ∃ shown below, overlayLayer width height s ctx opts strip p px =
      (Layer.when shown (bannerLayer width ctx.nodeOrd ctx.nodeTotal ctx.nodeId s)) p
        ((Layer.when opts.frameCounter (counterLayer width ctx.frameIndex ctx.vns s)) p below) :=
    ⟨_, _, rfl⟩
  rw [hlayers, bannerLayer_beside hs.le _ _ _ (.inl hline), hcounter, Layer.when, if_pos rfl,
    counterLayer, boxedLayer, Layer.over,
    Layer.solid, Layer.tinted]
  rw [counterArea] at hbox
  by_cases htext : p ∈ charDots (counterText ctx.frameIndex ctx.vns).toList
      (width.toNat - 8 * s * (counterText ctx.frameIndex ctx.vns).length - 3 * (2 * s)) (2 * s) s
  · rw [if_pos htext]
    exact iff_of_true rfl htext
  · rw [if_neg htext, if_pos hbox]
    exact iff_of_false (blendOver_black_ne_white _) htext

end Counter

/-! ### The buttons in the picture -/

theorem glyphDots_subset {c : Char} {x y s : Int} (hs : 0 ≤ s) :
    glyphDots c x y s ⊆ rect x y (8 * s) (8 * s) := by
  rintro p ⟨row, col, -, hp⟩
  have hcol : 0 ≤ (col : Int) * s ∧ (col : Int) * s ≤ 7 * s :=
    ⟨mul_nonneg (by omega) hs, mul_le_mul_of_nonneg_right (by omega) hs⟩
  have hrow : 0 ≤ (row : Int) * s ∧ (row : Int) * s ≤ 7 * s :=
    ⟨mul_nonneg (by omega) hs, mul_le_mul_of_nonneg_right (by omega) hs⟩
  rw [mem_rect] at hp ⊢
  omega

section Buttons

variable {x y s : Int} {buttons : UInt32} {b : HudButton}

def cornerOf (x y s : Int) (b : HudButton) : Int × Int := (x + b.col * 12 * s, y + b.row * 12 * s)

def cornerColor (buttons : UInt32) (ch : Char) : Rgb :=
  if isPressed buttons ch then pressedFill else releasedOutline

theorem buttonLayer_outside (hs : 0 ≤ s) {p : Int × Int}
    (hp : p ∉ rect (x + b.col * 12 * s) (y + b.row * 12 * s) (10 * s) (10 * s)) (px : Bytes) :
    buttonLayer x y buttons s b p px = px := by
  have hglyph : p ∉ glyphDots b.ch (x + b.col * 12 * s + s) (y + b.row * 12 * s + s) s := by
    intro hmem
    have hcell := glyphDots_subset hs hmem
    rw [mem_rect] at hp hcell
    omega
  have houtline : p ∉ outlineSet (x + b.col * 12 * s) (y + b.row * 12 * s) (10 * s) (10 * s) s :=
    fun hmem => hp hmem.1
  rw [buttonLayer]
  split
  · rw [Layer.over, Layer.solid, Layer.solid, if_neg hglyph, if_neg hp]
  · rw [Layer.over, Layer.solid, Layer.solid, if_neg hglyph, if_neg houtline]

theorem buttonLayer_corner (hs : 0 < s) (px : Bytes) :
    buttonLayer x y buttons s b (cornerOf x y s b) px = (cornerColor buttons b.ch).bytes := by
  have hglyph : cornerOf x y s b ∉
      glyphDots b.ch (x + b.col * 12 * s + s) (y + b.row * 12 * s + s) s := by
    intro hmem
    have hcell := glyphDots_subset hs.le hmem
    rw [cornerOf, mem_rect] at hcell
    simp only at hcell
    omega
  have hfill : cornerOf x y s b ∈
      rect (x + b.col * 12 * s) (y + b.row * 12 * s) (10 * s) (10 * s) := by
    rw [cornerOf, mem_rect]
    simp only
    omega
  have houtline : cornerOf x y s b ∈
      outlineSet (x + b.col * 12 * s) (y + b.row * 12 * s) (10 * s) (10 * s) s := by
    refine ⟨hfill, ?_⟩
    rw [cornerOf, mem_rect]
    simp only
    omega
  rw [buttonLayer, cornerColor]
  split
  · rw [Layer.over, Layer.solid, Layer.solid, if_neg hglyph, if_pos hfill]
  · rw [Layer.over, Layer.solid, Layer.solid, if_neg hglyph, if_pos houtline]

theorem layout_apart : layout.Pairwise fun b b' => b.col ≠ b'.col ∨ b.row ≠ b'.row := by
  decide

theorem cornerOf_notMem (hs : 0 < s) {b' : HudButton} (hapart : b.col ≠ b'.col ∨ b.row ≠ b'.row) :
    cornerOf x y s b ∉ rect (x + b'.col * 12 * s) (y + b'.row * 12 * s) (10 * s) (10 * s) := by
  have hgrid : ∀ i j : Int, j * 12 * s ≤ i * 12 * s → i * 12 * s < j * 12 * s + 10 * s → i = j := by
    intro i j hle hlt
    apply eq_of_mul_mem_square (s := 12 * s)
    · linarith
    · linarith
  rw [cornerOf, mem_rect]
  simp only
  rintro ⟨⟨hx, hx'⟩, hy, hy'⟩
  rcases hapart with hcol | hrow
  · exact hcol (hgrid _ _ (by omega) (by omega))
  · exact hrow (hgrid _ _ (by omega) (by omega))

/-- The corner of a button tells of that button, whichever others are drawn. -/
theorem hudLayer_corner (hs : 0 < s) (hb : b ∈ layout) (px : Bytes) :
    hudLayer x y buttons s (cornerOf x y s b) px = (cornerColor buttons b.ch).bytes := by
  obtain ⟨before, behind, hlayout⟩ := List.append_of_mem hb
  have hapart : ∀ b' ∈ behind, b.col ≠ b'.col ∨ b.row ≠ b'.row := by
    have hpairwise := layout_apart
    rw [hlayout] at hpairwise
    exact (List.pairwise_cons.mp (List.pairwise_append.mp hpairwise).2.1).1
  rw [hudLayer, hlayout, List.foldl_append, List.foldl_cons, buttonLayer_corner hs]
  -- the buttons behind it in the order leave its corner alone
  clear hlayout
  induction behind with
  | nil => rfl
  | cons b' behind ih =>
      rw [List.foldl_cons, buttonLayer_outside hs.le
        (cornerOf_notMem hs (hapart b' List.mem_cons_self))]
      exact ih fun b'' hb'' => hapart b'' (List.mem_cons_of_mem _ hb'')

theorem exists_button {i : Nat} (hi : i < 12) : ∃ b ∈ layout, buttonOrder.idxOf b.ch = i := by
  revert i
  decide

/-- Masks whose corners look the same hold the same buttons. -/
theorem buttons_eq_of_corners {buttons' : UInt32}
    (h : ∀ b ∈ layout, (cornerColor buttons b.ch).bytes = (cornerColor buttons' b.ch).bytes) :
    buttons &&& 0xFFF = buttons' &&& 0xFFF := by
  apply UInt32.toNat_inj.mp
  apply Nat.eq_of_testBit_eq
  intro i
  simp only [UInt32.toNat_and, Nat.testBit_and]
  by_cases hi : i < 12
  · obtain ⟨b, hb, rfl⟩ := exists_button hi
    have hcolor := h b hb
    have hpressed : isPressed buttons b.ch = isPressed buttons' b.ch := by
      unfold cornerColor at hcolor
      cases hheld : isPressed buttons b.ch <;> cases hheld' : isPressed buttons' b.ch
      all_goals simp_all [Rgb.bytes, pressedFill, releasedOutline]
    rw [show buttons.toNat.testBit (buttonOrder.idxOf b.ch) = _ from hpressed]
    rfl
  · have hmask : (0xFFF : UInt32).toNat.testBit i = false :=
      Nat.testBit_lt_two_pow (lt_of_lt_of_le (by decide) (Nat.pow_le_pow_right (by omega)
        (show 12 ≤ i by omega)))
    rw [hmask, Bool.and_false, Bool.and_false]

end Buttons

/-! ### Composed frames that look the same -/

/-- What composition is given, and what its caller vouches for. -/
structure OverlayCall (width height : UInt32) where
  frame : Rgb24Frame
  ctx : FrameOverlayCtx
  opts : OverlayOptions
  strip : Option StripTexture
  sized : frame.Sized width height
  rate_fits : opts.nodeBanner = true → ctx.framesSinceBoundary.toNat * ctx.fpsDen.toNat < 2 ^ 64
  strip_inMemory : ∀ t, strip = some t → t.image.InMemory

namespace OverlayCall

variable {width height : UInt32}

def composed (call : OverlayCall width height) (s : UInt32) : Outcome Empty Rgb24Frame :=
  compose call.frame s call.ctx call.opts call.strip

def Pictured (call : OverlayCall width height) (s : Int) (out : Rgb24Frame) : Prop :=
  ∀ p, out.pixelAt p =
    (call.frame.pixelAt p).map (overlayLayer width height s call.ctx call.opts call.strip p)

theorem exists_composed (call : OverlayCall width height) (s : UInt32) :
    ∃ out, call.composed s = .ok out ∧ call.Pictured (max s.toNat 1 : Nat) out := by
  obtain ⟨out, hcompose, -, hpixel⟩ :=
    compose_shows s call.rate_fits call.strip_inMemory call.frame call.sized
  exact ⟨out, hcompose, hpixel⟩

def text (call : OverlayCall width height) : List Char :=
  (counterText call.ctx.frameIndex call.ctx.vns).toList

/-- The counter is drawn, and the frame has all of its line. -/
structure CounterFits (call : OverlayCall width height) (s : Int) : Prop where
  shown : call.opts.frameCounter = true
  wide : 8 * s * call.text.length + 6 * s ≤ width.toNat
  high : 10 * s ≤ height.toNat

section Counter

variable {call call' : OverlayCall width height} {s : Int} {out out' : Rgb24Frame}

theorem white_iff (hs : 0 < s) (h : call.CounterFits s) (hout : call.Pictured s out)
    (k : Fin call.text.length) (row col : Fin 8) :
    out.pixelAt (dotAt (width.toNat - 8 * s * (call.text.length - k) - 6 * s) (2 * s) s row col) =
        some [255, 255, 255] ↔ glyphBit call.text[k] row col = true := by
  obtain ⟨hshown, hwide, hhigh⟩ := h
  have hcol : 0 ≤ (col : Int) * s ∧ (col : Int) * s ≤ 7 * s :=
    ⟨mul_nonneg (by omega) hs.le, mul_le_mul_of_nonneg_right (by omega) hs.le⟩
  have hrow : 0 ≤ (row : Int) * s ∧ (row : Int) * s ≤ 7 * s :=
    ⟨mul_nonneg (by omega) hs.le, mul_le_mul_of_nonneg_right (by omega) hs.le⟩
  have hk : 0 ≤ 8 * s * (k : Int) ∧ 8 * s * (k : Int) + 8 * s ≤ 8 * s * call.text.length := by
    refine ⟨mul_nonneg (by omega) (by omega), ?_⟩
    calc 8 * s * (k : Int) + 8 * s = 8 * s * ((k : Int) + 1) := by ring
      _ ≤ 8 * s * call.text.length := mul_le_mul_of_nonneg_left (by omega) (by omega)
  have hplace : (width.toNat - 8 * s * (call.text.length - k) - 6 * s : Int) =
      width.toNat - 8 * s * call.text.length - 3 * (2 * s) + 8 * s * k := by
    ring
  rw [hplace, ← dotAt_mem_charDots_iff hs k row col]
  set p := dotAt (width.toNat - 8 * s * call.text.length - 3 * (2 * s) + 8 * s * k) (2 * s) s
    row col with hp
  have hin : p ∈ rect 0 0 width.toNat height.toNat := by
    rw [hp, dotAt, mem_rect]
    simp only
    omega
  have hlen : (call.text.length : Int) = (counterText call.ctx.frameIndex call.ctx.vns).length := by
    rw [text, String.length_toList]
  have hbox : p ∈ counterArea width (counterText call.ctx.frameIndex call.ctx.vns) s := by
    rw [hp, dotAt, counterArea, mem_rect, ← hlen]
    simp only
    omega
  have hline : p.2 < 11 * s := by
    rw [hp, dotAt]
    simp only
    omega
  rw [hout, call.sized.pixelAt_of_mem hin, Option.map_some, Option.some.injEq,
    overlayLayer_white_iff hs hshown hline hbox, ← hlen]
  rfl

def counterRows (s : Int) : Set (Int × Int) := {p | 2 * s ≤ p.2 ∧ p.2 < 10 * s}

/-- Pictures that agree in the rows of the text have the same text there. -/
theorem text_eq (hs : 0 < s) (h : call.CounterFits s) (h' : call'.CounterFits s)
    (hout : call.Pictured s out) (hout' : call'.Pictured s out')
    (hsame : Set.EqOn out.pixelAt out'.pixelAt (counterRows s)) : call.text = call'.text := by
  have hhead : ∀ call : OverlayCall width height, call.text = 'F' :: call.text.tail := by
    intro call
    rw [text, toList_counterText]
    rfl
  rw [hhead call, hhead call']
  refine congrArg _ (eq_of_agree_from_right (notMem_tail_counterText _ _)
    (notMem_tail_counterText _ _) fun j hj hj' => ?_)
  change j < ('F' :: call.text.tail).length at hj
  change j < ('F' :: call'.text.tail).length at hj'
  show ('F' :: call.text.tail).reverse[j]? = ('F' :: call'.text.tail).reverse[j]?
  rw [← hhead] at hj hj' ⊢
  rw [← hhead]
  rw [List.getElem?_reverse hj, List.getElem?_reverse hj',
    List.getElem?_eq_getElem (by omega), List.getElem?_eq_getElem (by omega)]
  refine congrArg some (glyphBit_injOn (mem_counterChars (List.getElem_mem _))
    (mem_counterChars (List.getElem_mem _)) fun row col => ?_)
  have hrow : 0 ≤ (row : Int) * s ∧ (row : Int) * s ≤ 7 * s :=
    ⟨mul_nonneg (by omega) hs.le, mul_le_mul_of_nonneg_right (by omega) hs.le⟩
  have hwhite := white_iff hs h hout ⟨call.text.length - 1 - j, by omega⟩ row col
  have hwhite' := white_iff hs h' hout' ⟨call'.text.length - 1 - j, by omega⟩ row col
  have hplace : (call.text.length : Int) - (call.text.length - 1 - j : Nat) =
      call'.text.length - (call'.text.length - 1 - j : Nat) := by
    omega
  rw [hplace, hsame ⟨by simp only [dotAt]; omega, by simp only [dotAt]; omega⟩, hwhite'] at hwhite
  exact Bool.eq_iff_iff.mpr hwhite.symm

end Counter

/-- Two composed frames that agree in the rows of the counter were composed for
the same frame index and the same millisecond, whatever they are frames of and
whatever else is drawn on them. -/
theorem counter_legible (call call' : OverlayCall width height) (s : UInt32)
    (h : call.CounterFits (max s.toNat 1 : Nat)) (h' : call'.CounterFits (max s.toNat 1 : Nat)) :
    ∃ out out', call.composed s = .ok out ∧ call'.composed s = .ok out' ∧
      (Set.EqOn out.pixelAt out'.pixelAt (counterRows (max s.toNat 1 : Nat)) →
        call.ctx.frameIndex = call'.ctx.frameIndex ∧
          call.ctx.vns.toNat / 1000000 = call'.ctx.vns.toNat / 1000000) := by
  obtain ⟨out, hcomposed, hout⟩ := call.exists_composed s
  obtain ⟨out', hcomposed', hout'⟩ := call'.exists_composed s
  refine ⟨out, out', hcomposed, hcomposed', fun hsame => ?_⟩
  exact counterText_inj (text_eq (by omega) h h' hout hout' hsame)

/-! ### The controller -/

def reserved (call : OverlayCall width height) : Int :=
  bottomReserved (shownStrip call.opts call.strip)

def hudTop (call : OverlayCall width height) (s : Int) : Int :=
  height.toNat - call.reserved - 48 * s - 4 * s

/-- The controller is drawn, inside the frame and below counter and banner. -/
structure HudFits (call : OverlayCall width height) (s : Int) : Prop where
  shown : call.opts.inputHud = true
  wide : 100 * s ≤ width.toNat
  high : 25 * s ≤ call.hudTop s

section Hud

variable {call call' : OverlayCall width height} {s : Int} {out out' : Rgb24Frame}

theorem pixelAt_corner (hs : 0 < s) (h : call.HudFits s) (hout : call.Pictured s out)
    {b : HudButton} (hb : b ∈ layout) :
    out.pixelAt (cornerOf (4 * s) (call.hudTop s) s b) =
      some (cornerColor call.ctx.heldButtons b.ch).bytes := by
  obtain ⟨hshown, hwide, hhigh⟩ := h
  obtain ⟨-, hcol, hrow⟩ := layout_spec hb
  have hcol' : 0 ≤ b.col * 12 * s ∧ b.col * 12 * s ≤ 84 * s :=
    ⟨mul_nonneg (by omega) hs.le, mul_le_mul_of_nonneg_right (by omega) hs.le⟩
  have hrow' : 0 ≤ b.row * 12 * s ∧ b.row * 12 * s ≤ 36 * s :=
    ⟨mul_nonneg (by omega) hs.le, mul_le_mul_of_nonneg_right (by omega) hs.le⟩
  have hreserved : 0 ≤ call.reserved := by
    unfold reserved bottomReserved
    split <;> omega
  have hbelow : 25 * s ≤ (cornerOf (4 * s) (call.hudTop s) s b).2 := by
    rw [cornerOf]
    simp only
    omega
  have hin : cornerOf (4 * s) (call.hudTop s) s b ∈ rect 0 0 width.toNat height.toNat := by
    rw [hudTop] at hhigh ⊢
    rw [cornerOf, mem_rect]
    simp only
    omega
  rw [hout, call.sized.pixelAt_of_mem hin, Option.map_some]
  refine congrArg some ?_
  obtain ⟨banner, below, hlayers⟩ : ∃ banner below, overlayLayer width height s call.ctx call.opts
      call.strip (cornerOf (4 * s) (call.hudTop s) s b) (call.frame.pixel
        (cornerOf (4 * s) (call.hudTop s) s b).1.toNat
        (cornerOf (4 * s) (call.hudTop s) s b).2.toNat) =
      (Layer.when banner (bannerLayer width call.ctx.nodeOrd call.ctx.nodeTotal call.ctx.nodeId s))
        (cornerOf (4 * s) (call.hudTop s) s b)
        ((Layer.when call.opts.frameCounter
            (counterLayer width call.ctx.frameIndex call.ctx.vns s))
          (cornerOf (4 * s) (call.hudTop s) s b)
          ((Layer.when call.opts.inputHud
              (hudLayer (4 * s) (call.hudTop s) call.ctx.heldButtons s))
            (cornerOf (4 * s) (call.hudTop s) s b) below)) :=
    ⟨_, _, rfl⟩
  rw [hlayers, bannerLayer_beside hs.le _ _ _ (.inr hbelow),
    counterLayer_below hs.le _ _ (by omega), hshown, Layer.when, if_pos rfl, hudLayer_corner hs hb]

end Hud

/-- Two composed frames with their controllers in the same place that agree
there were composed for the same held buttons. -/
theorem hud_legible (call call' : OverlayCall width height) (s : UInt32)
    (h : call.HudFits (max s.toNat 1 : Nat)) (h' : call'.HudFits (max s.toNat 1 : Nat))
    (hreserved : call.reserved = call'.reserved) :
    ∃ out out', call.composed s = .ok out ∧ call'.composed s = .ok out' ∧
      (Set.EqOn out.pixelAt out'.pixelAt
          (hudArea height call.reserved (max s.toNat 1 : Nat)) →
        call.ctx.heldButtons &&& 0xFFF = call'.ctx.heldButtons &&& 0xFFF) := by
  obtain ⟨out, hcomposed, hout⟩ := call.exists_composed s
  obtain ⟨out', hcomposed', hout'⟩ := call'.exists_composed s
  refine ⟨out, out', hcomposed, hcomposed', fun hsame => ?_⟩
  refine buttons_eq_of_corners fun b hb => ?_
  have hs : 0 < ((max s.toNat 1 : Nat) : Int) := by omega
  have hcorner := pixelAt_corner hs h hout hb
  have hcorner' := pixelAt_corner hs h' hout' hb
  have htop : call'.hudTop (max s.toNat 1 : Nat) = call.hudTop (max s.toNat 1 : Nat) := by
    rw [hudTop, hudTop, hreserved]
  rw [htop] at hcorner'
  rw [hsame ?_, hcorner'] at hcorner
  · exact (Option.some.inj hcorner).symm
  · obtain ⟨-, hcol, hrow⟩ := layout_spec hb
    have hcol' : 0 ≤ b.col * 12 * (max s.toNat 1 : Nat) ∧
        b.col * 12 * (max s.toNat 1 : Nat) ≤ 84 * (max s.toNat 1 : Nat) :=
      ⟨mul_nonneg (by omega) hs.le, mul_le_mul_of_nonneg_right (by omega) hs.le⟩
    have hrow' : 0 ≤ b.row * 12 * (max s.toNat 1 : Nat) ∧
        b.row * 12 * (max s.toNat 1 : Nat) ≤ 36 * (max s.toNat 1 : Nat) :=
      ⟨mul_nonneg (by omega) hs.le, mul_le_mul_of_nonneg_right (by omega) hs.le⟩
    rw [hudArea, cornerOf, hudTop, mem_rect]
    simp only
    omega

/-! ### Two calls that look the same -/

theorem length_rows (a : UInt8) : (zeros 22800 ++ List.replicate 300 a).length = 23100 := by
  rw [List.length_append, length_zeros, List.length_replicate]

def dark : OverlayCall 100 77 where
  frame := ⟨100, 77, zeros 22800 ++ List.replicate 300 0⟩
  ctx := ⟨7, 1, 3, 1500000, 5, 1, 2, 9, 0, 60, 1⟩
  opts := ⟨true, true, false, false⟩
  strip := none
  sized := ⟨⟨length_rows _, (length_rows _).trans_le (by decide)⟩, rfl, rfl⟩
  rate_fits := by rintro ⟨⟩
  strip_inMemory := by simp

/-- A white line at the bottom, a later time in the same millisecond, a mask with
bits of no button, and a banner whose second is over. -/
def dusk : OverlayCall 100 77 where
  frame := ⟨100, 77, zeros 22800 ++ List.replicate 300 255⟩
  ctx := ⟨7, 1, 3, 1900000, 0xF005, 1, 2, 9, 60, 60, 1⟩
  opts := ⟨true, true, false, true⟩
  strip := none
  sized := ⟨⟨length_rows _, (length_rows _).trans_le (by decide)⟩, rfl, rfl⟩
  rate_fits := by decide
  strip_inMemory := by simp

theorem hudLayer_congr {buttons buttons' : UInt32}
    (h : ∀ b ∈ layout, isPressed buttons b.ch = isPressed buttons' b.ch) (x y s : Int) :
    hudLayer x y buttons s = hudLayer x y buttons' s := by
  funext p px
  refine List.foldl_ext _ _ px fun px b hb => ?_
  simp only [buttonLayer, h b hb]

theorem overlayLayer_dark_dusk :
    overlayLayer 100 77 1 dark.ctx dark.opts dark.strip =
      overlayLayer 100 77 1 dusk.ctx dusk.opts dusk.strip := by
  have htext : counterText 7 1500000 = counterText 7 1900000 := by
    have hms : (1500000 : UInt64).toNat / 1000000 = (1900000 : UInt64).toNat / 1000000 := by decide
    rw [counterText, counterText, hms]
  have hcounter : counterLayer 100 7 1500000 1 = counterLayer 100 7 1900000 1 := by
    rw [counterLayer, counterLayer, htext]
  have hhud : ∀ x y, hudLayer x y 5 1 = hudLayer x y 0xF005 1 :=
    fun x y => hudLayer_congr (by decide) x y 1
  show (Layer.when false (bannerLayer 100 1 2 9 1)).over ((Layer.when true
      (counterLayer 100 7 1500000 1)).over ((Layer.when true (hudLayer 4 25 5 1)).over
        Layer.clear)) = _
  rw [hcounter, hhud]
  rfl

/-- Above the last line there is nothing to tell the two by. -/
theorem dark_dusk_agree {out out' : Rgb24Frame} (h : dark.Pictured 1 out)
    (h' : dusk.Pictured 1 out') {p : Int × Int} (hp : p.2 < 76) :
    out.pixelAt p = out'.pixelAt p := by
  have hframes : dark.frame.pixelAt p = dusk.frame.pixelAt p := by
    by_cases hin : p ∈ rect 0 0 (100 : UInt32).toNat (77 : UInt32).toNat
    · rw [dark.sized.pixelAt_of_mem hin, dusk.sized.pixelAt_of_mem hin]
      have hbounds := mem_rect.mp hin
      have hin' : 3 * (p.2.toNat * 100 + p.1.toNat) + 3 ≤ 22800 := by
        simp at hbounds
        omega
      have hpixel : ∀ bs : Bytes, ((zeros 22800 ++ bs).drop
          (3 * (p.2.toNat * 100 + p.1.toNat))).take 3 =
            ((zeros 22800).drop (3 * (p.2.toNat * 100 + p.1.toNat))).take 3 := by
        intro bs
        rw [List.drop_append_of_le_length (by rw [length_zeros]; omega),
          List.take_append_of_le_length (by rw [List.length_drop, length_zeros]; omega)]
      exact congrArg some ((hpixel _).trans (hpixel _).symm)
    · rw [dark.sized.pixelAt_of_notMem hin, dusk.sized.pixelAt_of_notMem hin]
  rw [h, h', hframes, overlayLayer_dark_dusk]

/-- What is composed for the two, and where it agrees. -/
theorem composed_dark_dusk {out out' : Rgb24Frame} (h : dark.composed 0 = .ok out)
    (h' : dusk.composed 0 = .ok out') : Set.EqOn out.pixelAt out'.pixelAt {p | p.2 < 76} := by
  obtain ⟨_, hcomposed, hout⟩ := dark.exists_composed 0
  obtain ⟨_, hcomposed', hout'⟩ := dusk.exists_composed 0
  obtain rfl := Outcome.ok.inj (h.symm.trans hcomposed)
  obtain rfl := Outcome.ok.inj (h'.symm.trans hcomposed')
  exact fun p hp => dark_dusk_agree hout hout' hp

theorem counter_legible_dark_dusk :
    ∃ out out', dark.composed 0 = .ok out ∧ dusk.composed 0 = .ok out' ∧
      Set.EqOn out.pixelAt out'.pixelAt (counterRows 1) ∧
      dark.ctx.frameIndex = dusk.ctx.frameIndex ∧
      dark.ctx.vns.toNat / 1000000 = dusk.ctx.vns.toNat / 1000000 := by
  obtain ⟨out, out', hout, hout', hread⟩ := counter_legible dark dusk 0
    ⟨rfl, by decide +kernel, by decide⟩ ⟨rfl, by decide +kernel, by decide⟩
  have hsame : Set.EqOn out.pixelAt out'.pixelAt (counterRows 1) :=
    (composed_dark_dusk hout hout').mono fun p hp => by
      simp only [counterRows, Set.mem_ofPred_eq] at hp ⊢
      omega
  exact ⟨out, out', hout, hout', hsame, hread hsame⟩

theorem hud_legible_dark_dusk :
    ∃ out out', dark.composed 0 = .ok out ∧ dusk.composed 0 = .ok out' ∧
      Set.EqOn out.pixelAt out'.pixelAt (hudArea 77 0 1) ∧
      dark.ctx.heldButtons &&& 0xFFF = dusk.ctx.heldButtons &&& 0xFFF := by
  have hdark : dark.reserved = 0 := rfl
  have hdusk : dusk.reserved = 0 := rfl
  obtain ⟨out, out', hout, hout', hread⟩ := hud_legible dark dusk 0
    ⟨rfl, by decide, by decide⟩ ⟨rfl, by decide, by decide⟩ (hdark.trans hdusk.symm)
  have hsame : Set.EqOn out.pixelAt out'.pixelAt (hudArea 77 0 1) :=
    (composed_dark_dusk hout hout').mono fun p hp => by
      rw [hudArea, mem_rect] at hp
      have hheight : (77 : UInt32).toNat = 77 := by decide
      rw [hheight] at hp
      simp only [Set.mem_ofPred_eq]
      omega
  exact ⟨out, out', hout, hout', hsame, hread hsame⟩

end OverlayCall

end ReplayRenderer
