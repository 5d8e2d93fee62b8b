import ReplayRenderer.Overlay.Timeline

/-!
The strip with its ticks, and its blit with the playhead. A tick and the
playhead take a frame to a column; the line takes a column to a frame. Both
round down, so a tick or a playhead is on a column of its own frame where the
frame begins on a column, and one column to the left otherwise.

The blit copies rows past the clipping of the drawing primitives, and stays in
the bottom rows of the frame whatever the sizes are.
-/

namespace ReplayRenderer

open Lib Lib.Outcome

def stripTick : Rgb := ⟨70, 70, 80⟩
def playhead : Rgb := ⟨240, 240, 240⟩

structure StripTexture where
  image : Rgb24Frame
  deriving DecidableEq, Repr

/-- `n as i64`: the low 64 bits, as a signed number. -/
def asI64 (n : Nat) : Int := Int.bmod n (2 ^ 64)

def frameToX (frame total : UInt64) (width : UInt32) : Int :=
  if total = 0 then 0
  else min (asI64 (frame.toNat * width.toNat / total.toNat)) (width.toNat - 1)

section Source

variable {ε : Type}

/-- The tick of a node: every other row of its column. -/
def drawTick (spec : StripSpec) (h : Nat) (n : TimelineNode) (image : Rgb24Frame) :
    Outcome ε Rgb24Frame :=
  let x := frameToX n.firstFrame (max spec.totalFrames 1) spec.width
  forInt (fun y image => if y.tmod 2 = 0 then putPx image x y stripTick else pure image) image 0 h

def renderStrip (spec : StripSpec) : Outcome ε StripTexture := do
  let h ← u32 (24 * spec.s.toNat)
  let image ← stepLine spec h
  let image ← forEach (fun _ n image => drawTick spec h n image) 0 (spec.nodes.drop 1) image
  pure { image }

def blitRow (strip : StripTexture) (y0 copyW y : Nat) (frame : Rgb24Frame) :
    Outcome ε Rgb24Frame := do
  let src ← strip.image.row (UInt32.ofNat y)
  let dstY ← u32 (y0 + y)
  let index ← u64Mul dstY frame.width.toNat
  let dstOff ← u64Mul 3 index
  let copied ← u64Mul 3 copyW
  let dstEnd ← u64Add dstOff copied
  let src ← slice src 0 copied
  let pixels ← copyFromSlice frame.pixels dstOff dstEnd src
  pure { frame with pixels }

def blitStrip (frame : Rgb24Frame) (strip : StripTexture) (currentFrame totalFrames : UInt64) :
    Outcome ε Rgb24Frame := do
  let sh := strip.image.height.toNat
  let y0 := frame.height.toNat - sh
  let copyW := min strip.image.width.toNat frame.width.toNat
  let x := frameToX currentFrame (max totalFrames 1) frame.width
  let rows := min sh frame.height.toNat
  let stop : Int := frame.height.toNat
  let frame ← forRange (blitRow strip y0 copyW) frame rows
  forInt (fun y frame => putPx frame x y playhead) frame y0 stop

end Source

/-! ### Where ticks and strips go -/

section Marks

variable {ε : Type} {width height : UInt32}

theorem drawTick_marks (spec : StripSpec) (h : Nat) (n : TimelineNode) :
    Marks (ε := ε) width height {p | p.1 = frameToX n.firstFrame (max spec.totalFrames 1) spec.width}
      (drawTick spec h n) := by
  show Touches _ _ _ fun image => forInt (fun y image => if y.tmod 2 = 0 then
    putPx image (frameToX n.firstFrame (max spec.totalFrames 1) spec.width) y stripTick
    else pure image) image 0 h
  refine Touches.forInt fun y _ _ => Touches.ite (fun _ => ?_) fun _ => .nothing
  exact (putPx_colors _ y).touches (Set.singleton_subset_iff.mpr rfl)

/-- The strip is the direct line outside the columns of its ticks. -/
theorem renderStrip_spec {spec : StripSpec} (h : spec.Drawable) {image : Rgb24Frame}
    (hblack : (Rgb24Frame.black spec.width (UInt32.ofNat spec.height) : Outcome ε _) = .ok image) :
    ∃ strip, (renderStrip spec : Outcome ε _) = .ok strip ∧
      strip.image.Sized spec.width (UInt32.ofNat spec.height) ∧
      Set.EqOn strip.image.pixelAt spec.directLine.pixelAt
        {p | ∃ n ∈ spec.nodes.drop 1,
          p.1 = frameToX n.firstFrame (max spec.totalFrames 1) spec.width}ᶜ := by
  have hline := stepLine_eq (ε := ε) h
  rw [hblack, ok_bind] at hline
  have hticks : Marks (ε := ε) spec.width (UInt32.ofNat spec.height)
      {p | ∃ n ∈ spec.nodes.drop 1,
        p.1 = frameToX n.firstFrame (max spec.totalFrames 1) spec.width}
      (forEach (fun _ n image => drawTick spec spec.height n image) 0 (spec.nodes.drop 1)) :=
    Touches.forEach fun j n hn => (drawTick_marks spec spec.height n).mono fun p hp =>
      ⟨n, List.mem_of_getElem? hn, hp⟩
  obtain ⟨image', hforEach, himage', heq⟩ := hticks _ (directLine_sized h hblack)
  refine ⟨⟨image'⟩, ?_, himage', heq⟩
  rw [renderStrip, u32_of_lt h.height_lt, ok_bind]
  show (stepLine spec spec.height >>= _) = _
  rw [hline, ok_bind]
  show (forEach (fun _ n image => drawTick spec spec.height n image) 0 (spec.nodes.drop 1)
    spec.directLine >>= _) = _
  rw [hforEach, ok_bind, pure_eq]

theorem blitRow_marks {strip : StripTexture} (hstrip : strip.image.InMemory) {y0 y m : Nat}
    (hy : y < strip.image.height.toNat) (hroom : y0 + y < height.toNat)
    (hm : m ≤ strip.image.width.toNat ∧ m ≤ width.toNat) :
    Marks (ε := ε) width height (rect (0 : Nat) (y0 + y : Nat) m 1) (blitRow strip y0 m y) := by
  intro f hf
  have hread := Rgb24Frame.row_eq (ε := ε) hstrip.wellFormed hstrip.sized.size_lt hy
  have hlen := length_cells fun x hx => Rgb24Frame.length_pixel hstrip.wellFormed (x := x) hx hy
  obtain ⟨part, hpart, hpartLen⟩ := exists_slice (ε := ε)
    (cells strip.image.width.toNat fun x => strip.image.pixel x y) 0 (3 * m) (by omega) (by omega)
  obtain ⟨pixels, hcopy, hf', -, hout⟩ := hf.copyRow (ε := ε)
    (show 0 + m ≤ width.toNat by omega) hroom (show part.length = 3 * m by omega)
  have hbytes := Rgb24Frame.Sized.offset_le (show 0 + m ≤ width.toNat by omega) hroom
  have hlt := hf.size_lt
  have hheight := height.toNat_lt
  rw [Nat.add_zero] at hcopy hbytes
  refine ⟨_, ?_, hf', hout⟩
  rw [blitRow, hread, ok_bind, u32_of_lt (by omega), ok_bind, hf.width_eq,
    u64Mul_of_lt (by omega), ok_bind, u64Mul_of_lt (by omega), ok_bind, u64Mul_of_lt (by omega),
    ok_bind, u64Add_of_lt (by omega), ok_bind, hpart, ok_bind, hcopy, ok_bind, pure_eq]

theorem blitStrip_marks {strip : StripTexture} (hstrip : strip.image.InMemory)
    (currentFrame totalFrames : UInt64) :
    Marks (ε := ε) width height
      {p | (height.toNat : Int) - strip.image.height.toNat ≤ p.2}
      fun frame => blitStrip frame strip currentFrame totalFrames := by
  intro f hf
  have hrows : Marks (ε := ε) width height
      {p | (height.toNat : Int) - strip.image.height.toNat ≤ p.2} fun frame =>
      forRange (blitRow strip (height.toNat - strip.image.height.toNat)
        (min strip.image.width.toNat width.toNat)) frame
        (min strip.image.height.toNat height.toNat) := by
    refine Touches.forRange fun y hy => ?_
    refine (blitRow_marks hstrip (by omega) (by omega) (by omega)).mono fun p hp => ?_
    rw [mem_rect] at hp
    show _ ≤ p.2
    omega
  have hplayhead : Marks (ε := ε) width height
      {p | (height.toNat : Int) - strip.image.height.toNat ≤ p.2} fun frame =>
      forInt (fun y frame => putPx frame (frameToX currentFrame (max totalFrames 1) width) y
        playhead) frame ((height.toNat - strip.image.height.toNat : Nat) : Int) height.toNat := by
    refine Touches.forInt fun y hy _ => (putPx_colors _ y).touches ?_
    rw [Set.singleton_subset_iff]
    show _ ≤ y
    omega
  obtain ⟨f', hblit, hf', heq⟩ := (hrows.seq hplayhead) f hf
  refine ⟨f', ?_, hf', heq⟩
  simp only [blitStrip, hf.width_eq, hf.height_eq]
  exact hblit

end Marks

/-! ### Frames on columns -/

/-- From frame to column and back is the identity where nothing is rounded. -/
theorem mul_div_mul_div_eq_iff {f w t : Nat} (hw : 0 < w) :
    f * w / t * t / w = f ↔ t ∣ f * w := by
  constructor
  · intro hback
    have hle : f * w ≤ f * w / t * t := (Nat.le_div_iff_mul_le hw).mp hback.ge
    exact ⟨f * w / t, by rw [Nat.mul_comm t]; exact Nat.le_antisymm hle (Nat.div_mul_le_self _ _)⟩
  · intro hdvd
    rw [Nat.div_mul_cancel hdvd, Nat.mul_div_cancel f hw]

/-- Otherwise it is the frame before, when no frame is narrower than a column. -/
theorem mul_div_mul_div_of_not_dvd {f w t : Nat} (ht : 0 < t) (htw : t ≤ w)
    (hdvd : ¬t ∣ f * w) : f * w / t * t / w + 1 = f := by
  have hrem : 0 < f * w % t := Nat.pos_of_ne_zero fun hzero => hdvd (Nat.dvd_of_mod_eq_zero hzero)
  have hmod : f * w % t < t := Nat.mod_lt _ ht
  have hsplit : f * w / t * t + f * w % t = f * w := by
    rw [Nat.mul_comm (f * w / t)]
    exact Nat.div_add_mod _ _
  obtain ⟨g, rfl⟩ : ∃ g, f = g + 1 := Nat.exists_eq_succ_of_ne_zero (by
    rintro rfl
    rw [Nat.zero_mul, Nat.zero_mod] at hrem
    omega)
  rw [Nat.succ_mul] at *
  congr 1
  refine Nat.div_eq_of_lt_le (by omega) ?_
  rw [Nat.succ_mul]
  omega

theorem asI64_of_lt {n : Nat} (h : n < 2 ^ 63) : asI64 n = n := by
  have hbound : ((2 ^ 64 : Nat) : Int) = 18446744073709551616 := by norm_num
  apply Int.bmod_eq_of_le_mul_two
  · rw [hbound]
    omega
  · rw [hbound]
    omega

section Columns

variable {width : UInt32} {total f : UInt64}

theorem frameToX_eq (hwidth : 0 < width.toNat) (hf : f < total) :
    f.toNat * width.toNat / total.toNat < width.toNat ∧
      frameToX f total width = (f.toNat * width.toNat / total.toNat : Nat) := by
  have hlt : f.toNat < total.toNat := UInt64.lt_iff_toNat_lt.mp hf
  have hx : f.toNat * width.toNat / total.toNat < width.toNat := by
    rw [Nat.div_lt_iff_lt_mul (by omega), Nat.mul_comm]
    exact Nat.mul_lt_mul_of_pos_left hlt hwidth
  have htotal : total ≠ 0 := by
    rintro rfl
    exact absurd hlt (Nat.not_lt_zero _)
  have hsmall := width.toNat_lt
  refine ⟨hx, ?_⟩
  rw [frameToX, if_neg htotal, asI64_of_lt (by omega)]
  omega

theorem max_one_eq (hf : f < total) : max total 1 = total := by
  have hlt : f.toNat < total.toNat := UInt64.lt_iff_toNat_lt.mp hf
  apply UInt64.toNat_inj.mp
  rw [toNat_max_one]
  omega

theorem toNat_columnFrame_frameToX (hwidth : 0 < width.toNat) (hf : f < total) :
    (columnFrame total width (frameToX f total width).toNat).toNat =
      f.toNat * width.toNat / total.toNat * total.toNat / width.toNat := by
  obtain ⟨hx, hcol⟩ := frameToX_eq hwidth hf
  rw [hcol, Int.toNat_natCast, toNat_columnFrame hx, max_one_eq hf]

/-- The column of a frame is of that frame where the frame begins on a
column. -/
theorem columnFrame_frameToX_iff (hwidth : 0 < width.toNat) (hf : f < total) :
    columnFrame total width (frameToX f total width).toNat = f ↔
      total.toNat ∣ f.toNat * width.toNat := by
  rw [← UInt64.toNat_inj, toNat_columnFrame_frameToX hwidth hf]
  exact mul_div_mul_div_eq_iff hwidth

/-- Elsewhere the tick of a frame stands under the frame before. -/
theorem columnFrame_frameToX_pred (htotal : total.toNat ≤ width.toNat) (hf : f < total)
    (hdvd : ¬total.toNat ∣ f.toNat * width.toNat) :
    (columnFrame total width (frameToX f total width).toNat).toNat + 1 = f.toNat := by
  have hlt : f.toNat < total.toNat := UInt64.lt_iff_toNat_lt.mp hf
  rw [toNat_columnFrame_frameToX (by omega) hf]
  exact mul_div_mul_div_of_not_dvd (by omega) htotal hdvd

/-- Every frame is on its own column when the columns divide evenly. -/
theorem forall_columnFrame_iff (htotal : 1 ≤ total.toNat) (hwidth : 0 < width.toNat) :
    (∀ f < total, columnFrame total width (frameToX f total width).toNat = f) ↔
      total.toNat ∣ width.toNat := by
  constructor
  · intro hall
    rcases htotal.lt_or_eq with hlt | hone
    · have hfirst : (1 : UInt64) < total := UInt64.lt_iff_toNat_lt.mpr hlt
      have hdvd : total.toNat ∣ 1 * width.toNat :=
        (columnFrame_frameToX_iff hwidth hfirst).mp (hall 1 hfirst)
      rwa [Nat.one_mul] at hdvd
    · rw [← hone]
      exact Nat.one_dvd _
  · intro hdvd f hf
    exact (columnFrame_frameToX_iff hwidth hf).mpr (Nat.dvd_mul_left_of_dvd hdvd _)

end Columns

/-- The column where the tick and the playhead of a frame are drawn is one of
that frame, and the line there shows the score of the frame's owner. -/
structure OnOwnColumn (width : UInt32) (total f : UInt64) : Prop where
  column : columnFrame total width (frameToX f total width).toNat = f
  shown : ∀ spec : StripSpec, spec.Drawable → spec.width = width → spec.totalFrames = total →
    ∀ image, (stepLine spec spec.height : Outcome Empty Rgb24Frame) = .ok image →
    ∀ n, spec.nodes[nodeAt spec.nodes f.toNat]? = some n →
    spec.ShowsAt image (frameToX f total width) n

/-- Ticks and the playhead are on the columns of their frames exactly when the
frame begins on a column. -/
theorem onOwnColumn_iff {width : UInt32} {total f : UInt64} (htotal : total.toNat ≤ width.toNat)
    (hf : f < total) : OnOwnColumn width total f ↔ total.toNat ∣ f.toNat * width.toNat := by
  have hlt : f.toNat < total.toNat := UInt64.lt_iff_toNat_lt.mp hf
  have hwidth : 0 < width.toNat := by omega
  refine ⟨fun h => (columnFrame_frameToX_iff hwidth hf).mp h.column, fun hdvd => ?_⟩
  have hcolumn := (columnFrame_frameToX_iff hwidth hf).mpr hdvd
  refine ⟨hcolumn, ?_⟩
  rintro spec h rfl rfl image hline n hn
  obtain ⟨hx, hcol⟩ := frameToX_eq hwidth hf
  rw [stepLine_eq h] at hline
  obtain ⟨_, -, hline⟩ := bind_eq_ok.mp hline
  obtain rfl := Outcome.ok.inj hline
  have hframe : spec.frameOf (f.toNat * spec.width.toNat / spec.totalFrames.toNat) = f.toNat := by
    rw [hcol, Int.toNat_natCast, ← UInt64.toNat_inj, toNat_columnFrame hx] at hcolumn
    exact hcolumn
  rw [hcol]
  refine directLine_showsAt h hx ?_
  rw [StripSpec.columnNode, hframe, hn]

/-- Three frames on six columns, the frame in the middle. -/
theorem onOwnColumn_six_three : OnOwnColumn 6 3 1 := by
  have htotal : (3 : UInt64).toNat ≤ (6 : UInt32).toNat := by decide
  have hf : (1 : UInt64) < 3 := by decide
  have hdvd : (3 : UInt64).toNat ∣ (1 : UInt64).toNat * (6 : UInt32).toNat := by decide
  exact (onOwnColumn_iff htotal hf).mpr hdvd

/-- A node a frame, and one column too few. -/
def unevenColumns : StripSpec where
  width := 5
  s := 1
  totalFrames := 3
  nodes := [⟨0, 0⟩, ⟨1, 1000⟩, ⟨2, 2000⟩]

/-- The second frame's tick is on a column of the first, where the line shows
the score of the first node. -/
theorem not_onOwnColumn_five_three :
    ¬OnOwnColumn 5 3 1 ∧ frameToX 1 3 5 = 1 ∧ columnFrame 3 5 1 = 0 ∧
      unevenColumns.columnNode 1 = unevenColumns.nodes[0]? ∧
      nodeAt unevenColumns.nodes 1 = 1 := by
  refine ⟨fun h => ?_, by decide, by decide, by decide, by decide⟩
  exact absurd h.column (by decide)

end ReplayRenderer
