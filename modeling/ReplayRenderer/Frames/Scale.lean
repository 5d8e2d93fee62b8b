import ReplayRenderer.Frames.Rgb24

/-!
Integer upscale and padding. The scaler expands a row into a buffer that it
reuses and appends the buffer as often as it scales; the result is the frame
whose pixel at `(x, y)` is the source pixel at `(x / s, y / s)`.
-/

namespace ReplayRenderer

open Lib Lib.Outcome

/-- `a.checked_div(b)` on `u32`. -/
def checkedDivU32 (a b : UInt32) : Option UInt32 := if b = 0 then none else some (a / b)

/-- `a + b` on `u32`. -/
def u32Add {ε : Type} (a b : UInt32) : Outcome ε UInt32 :=
  if a.toNat + b.toNat < 2 ^ 32 then .ok (a + b) else .panic

def selectFactor (width height targetW targetH : UInt32) : UInt32 :=
  let sw := (checkedDivU32 targetW width).getD 1
  let sh := (checkedDivU32 targetH height).getD 1
  max (min sw sh) 1

section Source

variable {ε : Type}

def expandPixel (src : Bytes) (s x : Nat) (rowBuf : Bytes) : Outcome ε Bytes := do
  let px ← slice src (3 * x) (3 * x + 3)
  forRange (fun r rowBuf =>
    copyFromSlice rowBuf (3 * (x * s + r)) (3 * (x * s + r) + 3) px) rowBuf s

/-- The row buffer filled, then appended `s` times. -/
def scaleRow (frame : Rgb24Frame) (s y : Nat) : Bytes × Bytes → Outcome ε (Bytes × Bytes)
  | (pixels, rowBuf) => do
    let src ← frame.row (UInt32.ofNat y)
    let rowBuf ← forRange (expandPixel src s) rowBuf frame.width.toNat
    let pixels ← forRange (fun _ pixels => pure (pixels ++ rowBuf)) pixels s
    pure (pixels, rowBuf)

def scaleNn (frame : Rgb24Frame) (s : UInt32) : Outcome ε Rgb24Frame := do
  require (1 ≤ s)
  if s = 1 then
    pure frame
  else do
    let outW ← Outcome.expect (checkedMulU32 frame.width s)
    let outH ← Outcome.expect (checkedMulU32 frame.height s)
    let outRowBytes ← u64Mul 3 outW.toNat
    let capacity ← u64Mul outRowBytes outH.toNat
    reserve capacity
    reserve outRowBytes
    let (pixels, _) ← forRange (scaleRow frame s.toNat) ([], zeros outRowBytes)
      frame.height.toNat
    pure { width := outW, height := outH, pixels }

def padRow (frame : Rgb24Frame) (outRow offX offY y : Nat) (pixels : Bytes) :
    Outcome ε Bytes := do
  let rows ← u64Mul (y + offY) outRow
  let dstStart ← u64Add rows (3 * offX)
  let src ← frame.row (UInt32.ofNat y)
  copyFromSlice pixels dstStart (dstStart + src.length) src

def padToEven (frame : Rgb24Frame) : Outcome ε Rgb24Frame := do
  let outW ← u32Add frame.width (frame.width % 2)
  let outH ← u32Add frame.height (frame.height % 2)
  if (outW, outH) = (frame.width, frame.height) then
    pure frame
  else do
    -- A pad of one pixel goes to the right and the bottom.
    let offX := ((outW - frame.width) / 2).toNat
    let offY := ((outH - frame.height) / 2).toNat
    let out ← Rgb24Frame.black outW outH
    let outRow ← u64Mul 3 outW.toNat
    let pixels ← forRange (padRow frame outRow offX offY) out.pixels frame.height.toNat
    pure { out with pixels }

end Source

/-! ### Upscaling -/

section Scale

variable {ε : Type} {frame : Rgb24Frame}

theorem mul_add_div_of_lt {x s r : Nat} (hr : r < s) : (x * s + r) / s = x := by
  rw [Nat.mul_comm, Nat.mul_add_div (by omega), Nat.div_eq_of_lt hr, Nat.add_zero]

theorem mul_add_lt {x s r n : Nat} (hx : x < n) (hr : r < s) : x * s + r < n * s := by
  have hrow : (x + 1) * s ≤ n * s := Nat.mul_le_mul_right s hx
  rw [Nat.succ_mul] at hrow
  omega

theorem expandPixel_eq {old : Bytes} {p : Nat → Bytes} {s x width : Nat}
    (hold : old.length = width * s * 3) (hp : ∀ x < width, (p x).length = 3) (hx : x < width) :
    (expandPixel (cells width p) s x (cells (x * s) (fun i => p (i / s)) ++ old.drop (x * s * 3)) :
      Outcome ε Bytes) =
      .ok (cells ((x + 1) * s) (fun i => p (i / s)) ++ old.drop ((x + 1) * s * 3)) := by
  have hlen := length_cells hp
  have hpx : (slice (cells width p) (3 * x) (3 * x + 3) : Outcome ε Bytes) = .ok (p x) := by
    rw [slice, if_pos ⟨by omega, by omega⟩, Nat.add_sub_cancel_left, Nat.mul_comm 3]
    exact congrArg Outcome.ok (cell_cells hp hx)
  have hcells : ∀ i < width * s, (p (i / s)).length = 3 := fun i hi =>
    hp _ (Nat.div_lt_of_lt_mul (by rwa [Nat.mul_comm]))
  have hloop := forRange_eq (ε := ε) (n := s)
    (fun r rowBuf => copyFromSlice rowBuf (3 * (x * s + r)) (3 * (x * s + r) + 3) (p x))
    (fun r => cells (x * s + r) (fun i => p (i / s)) ++ old.drop ((x * s + r) * 3)) (by
      intro r hr
      have hcopy := copyFromSlice_cells (ε := ε) hold hcells (mul_add_lt hx hr)
      rw [mul_add_div_of_lt hr, Nat.mul_comm _ 3] at hcopy
      rwa [Nat.mul_comm _ 3])
  rw [Nat.add_zero] at hloop
  rw [expandPixel, hpx, ok_bind, hloop, Nat.succ_mul]

def scaledRow (frame : Rgb24Frame) (s y : Nat) : Bytes :=
  cells (frame.width.toNat * s) fun x => frame.pixel (x / s) y

theorem length_scaledRow (hf : frame.WellFormed) {s y : Nat} (hy : y < frame.height.toNat) :
    (scaledRow frame s y).length = frame.width.toNat * s * 3 :=
  length_cells fun _ hx => Rgb24Frame.length_pixel hf
    (Nat.div_lt_of_lt_mul (by rwa [Nat.mul_comm])) hy

/-- What the buffer held before does not show. -/
theorem expandRow_eq (hf : frame.WellFormed) {old : Bytes} {s y : Nat}
    (hold : old.length = frame.width.toNat * s * 3) (hy : y < frame.height.toNat) :
    (forRange (expandPixel (cells frame.width.toNat fun x => frame.pixel x y) s) old
      frame.width.toNat : Outcome ε Bytes) = .ok (scaledRow frame s y) := by
  have hloop := forRange_eq (ε := ε) _ (fun x =>
    cells (x * s) (fun i => frame.pixel (i / s) y) ++ old.drop (x * s * 3)) fun x hx =>
      expandPixel_eq hold (fun x hx => Rgb24Frame.length_pixel hf hx hy) hx
  rw [Nat.zero_mul, Nat.zero_mul, cells_zero, List.nil_append, List.drop_zero,
    ← hold, List.drop_length, List.append_nil] at hloop
  exact hloop

theorem scaleRow_eq (hf : frame.WellFormed)
    (hfits : 3 * frame.width.toNat * frame.height.toNat < u64Bound) {old : Bytes} {s y : Nat}
    (hold : old.length = frame.width.toNat * s * 3) (hy : y < frame.height.toNat) :
    (scaleRow frame s y (cells (y * s) (fun i => scaledRow frame s (i / s)), old) :
      Outcome ε (Bytes × Bytes)) =
      .ok (cells ((y + 1) * s) (fun i => scaledRow frame s (i / s)), scaledRow frame s y) := by
  have hsrc := Rgb24Frame.row_eq (ε := ε) hf hfits hy
  have hloop := forRange_eq (ε := ε) (n := s)
    (fun _ pixels => pure (pixels ++ scaledRow frame s y))
    (fun r => cells (y * s + r) fun i => scaledRow frame s (i / s)) (by
      intro r hr
      rw [← Nat.add_assoc, cells_succ, mul_add_div_of_lt hr, pure_eq])
  rw [Nat.add_zero] at hloop
  rw [scaleRow, hsrc, ok_bind, expandRow_eq hf hold hy, ok_bind, hloop, ok_bind, Nat.succ_mul,
    pure_eq]

/-- The frame whose pixels are those of `frame`, each `s` times in both
directions. -/
def Rgb24Frame.scaled (frame : Rgb24Frame) (s : UInt32) : Rgb24Frame :=
  Rgb24Frame.ofPixels (frame.width * s) (frame.height * s) fun x y =>
    frame.pixel (x / s.toNat) (y / s.toNat)

/-- The result fits: its sides in 32 bits, its bytes in an allocation. -/
structure Rgb24Frame.ScaleFits (frame : Rgb24Frame) (s : Nat) : Prop where
  width : s * frame.width.toNat < 2 ^ 32
  height : s * frame.height.toNat < 2 ^ 32
  bytes : 3 * (s * frame.width.toNat) * (s * frame.height.toNat) ≤ isizeMax

theorem Rgb24Frame.ScaleFits.of_le {s s' : Nat} (h : frame.ScaleFits s') (hle : s ≤ s') :
    frame.ScaleFits s := by
  have hwidth : s * frame.width.toNat ≤ s' * frame.width.toNat := Nat.mul_le_mul_right _ hle
  have hheight : s * frame.height.toNat ≤ s' * frame.height.toNat := Nat.mul_le_mul_right _ hle
  exact ⟨hwidth.trans_lt h.width, hheight.trans_lt h.height,
    (Nat.mul_le_mul (Nat.mul_le_mul_left 3 hwidth) hheight).trans h.bytes⟩

def rowBufBefore (frame : Rgb24Frame) (s : Nat) : Nat → Bytes
  | 0 => zeros (frame.width.toNat * s * 3)
  | y + 1 => scaledRow frame s y

theorem length_rowBufBefore (hf : frame.WellFormed) (s : Nat) {y : Nat}
    (hy : y < frame.height.toNat) :
    (rowBufBefore frame s y).length = frame.width.toNat * s * 3 := by
  cases y with
  | zero => exact length_zeros _
  | succ y => exact length_scaledRow hf (Nat.lt_of_succ_lt hy)

theorem toNat_mul_of_lt {a b : UInt32} (h : b.toNat * a.toNat < 2 ^ 32) :
    (a * b).toNat = a.toNat * b.toNat := by
  rw [UInt32.toNat_mul, Nat.mod_eq_of_lt (by rwa [Nat.mul_comm])]

theorem checkedMulU32_of_lt {a b : UInt32} (h : b.toNat * a.toNat < 2 ^ 32) :
    checkedMulU32 a b = some (a * b) := if_pos (by rwa [Nat.mul_comm])

theorem Rgb24Frame.scaled_one (hf : frame.WellFormed) : frame.scaled 1 = frame := by
  have hone : (1 : UInt32).toNat = 1 := rfl
  rw [Rgb24Frame.scaled, UInt32.mul_one, UInt32.mul_one, hone]
  simp only [Nat.div_one]
  exact (Rgb24Frame.eq_ofPixels hf).symm

theorem scaleNn_eq (hf : frame.WellFormed) {s : UInt32} (hs : 1 ≤ s.toNat)
    (hfits : frame.ScaleFits s.toNat) :
    (scaleNn frame s : Outcome ε Rgb24Frame) = .ok (frame.scaled s) := by
  have hpos : 1 ≤ s := UInt32.le_iff_toNat_le.mpr hs
  have hlimit : isizeMax < u64Bound := by decide
  have hone := hfits.of_le hs
  have hbytes := hfits.bytes
  have hsource : 3 * frame.width.toNat * frame.height.toNat < u64Bound := by
    have hle := hone.bytes
    rw [Nat.one_mul, Nat.one_mul] at hle
    exact hle.trans_lt hlimit
  rw [scaleNn, require_pos hpos, ok_bind]
  by_cases h1 : s = 1
  · rw [if_pos h1, h1, Rgb24Frame.scaled_one hf, pure_eq]
  · have hwidth := toNat_mul_of_lt hfits.width
    have hheight := toNat_mul_of_lt hfits.height
    have hloop := forRange_eq (ε := ε) (scaleRow frame s.toNat) (fun y =>
      (cells (y * s.toNat) (fun i => scaledRow frame s.toNat (i / s.toNat)),
        rowBufBefore frame s.toNat y)) fun y hy =>
          scaleRow_eq hf hsource (length_rowBufBefore hf _ hy) hy
    have hrow : 3 * (frame.width * s).toNat < 2 ^ 34 := by
      have hlt := (frame.width * s).toNat_lt
      omega
    have hbuffer : zeros (3 * (frame.width * s).toNat) = rowBufBefore frame s.toNat 0 := by
      rw [rowBufBefore, hwidth, Nat.mul_comm 3]
    have hcapacity : 3 * (frame.width * s).toNat * (frame.height * s).toNat ≤ isizeMax := by
      rwa [hwidth, hheight, Nat.mul_comm frame.width.toNat, Nat.mul_comm frame.height.toNat]
    rw [Nat.zero_mul, cells_zero] at hloop
    rw [if_neg h1, checkedMulU32_of_lt hfits.width, expect_some, ok_bind,
      checkedMulU32_of_lt hfits.height, expect_some, ok_bind, u64Mul_of_lt (by unfold u64Bound; omega),
      ok_bind, u64Mul_of_lt (by omega), ok_bind, reserve, require_pos hcapacity, ok_bind, reserve,
      require_pos (by unfold isizeMax; omega), ok_bind, hbuffer, hloop, ok_bind, Rgb24Frame.scaled,
      Rgb24Frame.ofPixels, hwidth, hheight]
    rfl

theorem Rgb24Frame.toNat_scaled {s : UInt32} (hfits : frame.ScaleFits s.toNat) :
    (frame.scaled s).width.toNat = s.toNat * frame.width.toNat ∧
      (frame.scaled s).height.toNat = s.toNat * frame.height.toNat := by
  rw [Nat.mul_comm, Nat.mul_comm s.toNat]
  exact ⟨toNat_mul_of_lt hfits.width, toNat_mul_of_lt hfits.height⟩

theorem Rgb24Frame.source_lt {s : UInt32} (hfits : frame.ScaleFits s.toNat) {x y : Nat}
    (hx : x < (frame.scaled s).width.toNat) (hy : y < (frame.scaled s).height.toNat) :
    x / s.toNat < frame.width.toNat ∧ y / s.toNat < frame.height.toNat := by
  rw [(Rgb24Frame.toNat_scaled hfits).1] at hx
  rw [(Rgb24Frame.toNat_scaled hfits).2] at hy
  exact ⟨Nat.div_lt_of_lt_mul hx, Nat.div_lt_of_lt_mul hy⟩

theorem Rgb24Frame.length_source (hf : frame.WellFormed) {s : UInt32}
    (hfits : frame.ScaleFits s.toNat) : ∀ x < (frame.width * s).toNat,
      ∀ y < (frame.height * s).toNat, (frame.pixel (x / s.toNat) (y / s.toNat)).length = 3 := by
  intro x hx y hy
  obtain ⟨hx', hy'⟩ := Rgb24Frame.source_lt hfits hx hy
  exact Rgb24Frame.length_pixel hf hx' hy'

structure Rgb24Frame.ScaledBy (frame : Rgb24Frame) (s : Nat) (out : Rgb24Frame) : Prop where
  wellFormed : out.WellFormed
  width : out.width.toNat = s * frame.width.toNat
  height : out.height.toNat = s * frame.height.toNat
  pixel : ∀ x < out.width.toNat, ∀ y < out.height.toNat,
    out.pixel x y = frame.pixel (x / s) (y / s)

theorem Rgb24Frame.scaledBy_scaled (hf : frame.WellFormed) {s : UInt32}
    (hfits : frame.ScaleFits s.toNat) : frame.ScaledBy s.toNat (frame.scaled s) where
  wellFormed := Rgb24Frame.wellFormed_ofPixels (Rgb24Frame.length_source hf hfits)
  width := (Rgb24Frame.toNat_scaled hfits).1
  height := (Rgb24Frame.toNat_scaled hfits).2
  pixel := fun _ hx _ hy => Rgb24Frame.pixel_ofPixels (Rgb24Frame.length_source hf hfits) hx hy

theorem Rgb24Frame.scaled_scaled (hf : frame.WellFormed) {a b : UInt32}
    (hab : b.toNat * a.toNat < 2 ^ 32) (ha : frame.ScaleFits a.toNat)
    (hboth : (frame.scaled a).ScaleFits b.toNat) :
    (frame.scaled a).scaled b = frame.scaled (a * b) := by
  have hwidth : (frame.scaled a).width * b = frame.width * (a * b) := UInt32.mul_assoc _ _ _
  have hheight : (frame.scaled a).height * b = frame.height * (a * b) := UInt32.mul_assoc _ _ _
  rw [Rgb24Frame.scaled, hwidth, hheight]
  apply Rgb24Frame.ofPixels_congr
  intro x hx y hy
  rw [← hwidth] at hx
  rw [← hheight] at hy
  obtain ⟨hx', hy'⟩ := Rgb24Frame.source_lt hboth hx hy
  rw [(Rgb24Frame.scaledBy_scaled hf ha).pixel _ hx' _ hy', Nat.div_div_eq_div_mul,
    Nat.div_div_eq_div_mul, toNat_mul_of_lt hab, Nat.mul_comm b.toNat]

/-- The intermediate frame of two upscales fits when the last one does. -/
theorem scaleNn_scaleNn (hf : frame.WellFormed) {a b : UInt32} (ha : 1 ≤ a.toNat)
    (hb : 1 ≤ b.toNat) (hab : b.toNat * a.toNat < 2 ^ 32)
    (hfits : frame.ScaleFits (b.toNat * a.toNat)) :
    (scaleNn frame a >>= fun out => scaleNn out b : Outcome ε Rgb24Frame) =
      scaleNn frame (a * b) := by
  have hfirst : frame.ScaleFits a.toNat := hfits.of_le (Nat.le_mul_of_pos_left _ hb)
  have hproduct : (a * b).toNat = b.toNat * a.toNat := by
    rw [toNat_mul_of_lt hab, Nat.mul_comm]
  obtain ⟨hwidth, hheight⟩ := Rgb24Frame.toNat_scaled hfirst
  have hsecond : (frame.scaled a).ScaleFits b.toNat := by
    refine ⟨?_, ?_, ?_⟩
    · rw [hwidth, ← Nat.mul_assoc]
      exact hfits.width
    · rw [hheight, ← Nat.mul_assoc]
      exact hfits.height
    · rw [hwidth, hheight, ← Nat.mul_assoc b.toNat, ← Nat.mul_assoc b.toNat]
      exact hfits.bytes
  rw [scaleNn_eq hf ha hfirst, ok_bind,
    scaleNn_eq (Rgb24Frame.scaledBy_scaled hf hfirst).wellFormed hb hsecond,
    Rgb24Frame.scaled_scaled hf hab hfirst hsecond,
    scaleNn_eq hf (by rw [hproduct]; exact Nat.mul_pos hb ha) (by rwa [hproduct])]

end Scale

/-! ### The scale factor -/

/-- What the factor is for: the largest that fits the target. -/
theorem selectFactor_spec {width height targetW targetH : UInt32} (hwidth : 1 ≤ width.toNat)
    (hheight : 1 ≤ height.toNat) (hw : width ≤ targetW) (hh : height ≤ targetH) :
    (selectFactor width height targetW targetH).toNat =
      min (targetW.toNat / width.toNat) (targetH.toNat / height.toNat) := by
  have hw0 : width ≠ 0 := by
    rintro rfl
    exact absurd hwidth (by decide)
  have hh0 : height ≠ 0 := by
    rintro rfl
    exact absurd hheight (by decide)
  have hsw : 1 ≤ targetW.toNat / width.toNat :=
    (Nat.one_le_div_iff hwidth).mpr (UInt32.le_iff_toNat_le.mp hw)
  have hsh : 1 ≤ targetH.toNat / height.toNat :=
    (Nat.one_le_div_iff hheight).mpr (UInt32.le_iff_toNat_le.mp hh)
  rw [selectFactor, checkedDivU32, if_neg hw0, checkedDivU32, if_neg hh0, Option.getD_some,
    Option.getD_some, UInt32.toNat_max, UInt32.toNat_min, UInt32.toNat_div, UInt32.toNat_div]
  exact Nat.max_eq_left (le_min hsw hsh)

theorem selectFactor_greatest {width height targetW targetH : UInt32} (hwidth : 1 ≤ width.toNat)
    (hheight : 1 ≤ height.toNat) (hw : width ≤ targetW) (hh : height ≤ targetH) (s : Nat) :
    s ≤ (selectFactor width height targetW targetH).toNat ↔
      s * width.toNat ≤ targetW.toNat ∧ s * height.toNat ≤ targetH.toNat := by
  rw [selectFactor_spec hwidth hheight hw hh, le_min_iff, Nat.le_div_iff_mul_le hwidth,
    Nat.le_div_iff_mul_le hheight]

/-! ### Padding -/

section Pad

variable {ε : Type} {frame : Rgb24Frame}

def evenUp (n : Nat) : Nat := n + n % 2

def Rgb24Frame.pixelOrBlack (frame : Rgb24Frame) (x y : Nat) : Bytes :=
  if x < frame.width.toNat ∧ y < frame.height.toNat then frame.pixel x y else zeros 3

def Rgb24Frame.padded (frame : Rgb24Frame) (outW outH : UInt32) : Rgb24Frame :=
  Rgb24Frame.ofPixels outW outH frame.pixelOrBlack

structure Rgb24Frame.PadFits (frame : Rgb24Frame) : Prop where
  width : evenUp frame.width.toNat < 2 ^ 32
  height : evenUp frame.height.toNat < 2 ^ 32
  bytes : 3 * evenUp frame.width.toNat * evenUp frame.height.toNat ≤ isizeMax

def paddedRow (frame : Rgb24Frame) (outW y : Nat) : Bytes :=
  (cells frame.width.toNat fun x => frame.pixel x y) ++ zeros ((outW - frame.width.toNat) * 3)

theorem length_cells_pixel (hf : frame.WellFormed) {y : Nat} (hy : y < frame.height.toNat) :
    (cells frame.width.toNat fun x => frame.pixel x y).length = frame.width.toNat * 3 :=
  length_cells fun _ hx => Rgb24Frame.length_pixel hf hx hy

theorem length_paddedRow (hf : frame.WellFormed) {outW y : Nat}
    (hwidth : frame.width.toNat ≤ outW) (hy : y < frame.height.toNat) :
    (paddedRow frame outW y).length = outW * 3 := by
  rw [paddedRow, List.length_append, length_cells_pixel hf hy, length_zeros]
  omega

theorem zeros_append_zeros (m n : Nat) : zeros m ++ zeros n = zeros (m + n) :=
  List.replicate_append_replicate

theorem drop_zeros (m n : Nat) : (zeros n).drop m = zeros (n - m) := List.drop_replicate

theorem padRow_eq (hf : frame.WellFormed) {outW outH y : Nat}
    (hwidth : frame.width.toNat ≤ outW) (hheight : frame.height.toNat ≤ outH)
    (hfits : 3 * outW * outH < u64Bound) (hy : y < frame.height.toNat) :
    (padRow frame (3 * outW) 0 0 y
      (cells y (paddedRow frame outW) ++ zeros ((outH - y) * (outW * 3))) : Outcome ε Bytes) =
      .ok (cells (y + 1) (paddedRow frame outW) ++ zeros ((outH - (y + 1)) * (outW * 3))) := by
  have hsource : 3 * frame.width.toNat * frame.height.toNat < u64Bound :=
    (Nat.mul_le_mul (Nat.mul_le_mul_left 3 hwidth) hheight).trans_lt hfits
  have hsrc := Rgb24Frame.row_eq (ε := ε) hf hsource hy
  have hlen := length_cells_pixel hf hy
  have hdone : (cells y (paddedRow frame outW)).length = y * (3 * outW) := by
    rw [Nat.mul_comm 3]
    exact length_cells fun i hi => length_paddedRow hf hwidth (hi.trans hy)
  have hstart : y * (3 * outW) ≤ 3 * outW * outH := by
    rw [Nat.mul_comm]
    exact Nat.mul_le_mul_left _ (hy.le.trans hheight)
  have hleft : (outH - y) * (outW * 3) = outW * 3 + (outH - (y + 1)) * (outW * 3) := by
    rw [show outH - y = outH - (y + 1) + 1 by omega, Nat.succ_mul, Nat.add_comm]
  have hroom : (cells frame.width.toNat fun x => frame.pixel x y).length ≤
      (zeros ((outH - y) * (outW * 3))).length := by
    rw [hlen, length_zeros, hleft]
    omega
  have hrest : (outH - y) * (outW * 3) - frame.width.toNat * 3 =
      (outW - frame.width.toNat) * 3 + (outH - (y + 1)) * (outW * 3) := by
    rw [hleft]
    omega
  rw [padRow, Nat.add_zero, Nat.mul_zero, u64Mul_of_lt (by omega), ok_bind,
    u64Add_of_lt (by omega), ok_bind, Nat.add_zero, hsrc, ok_bind,
    copyFromSlice_append hdone hroom, drop_zeros, hlen, hrest, ← zeros_append_zeros, cells_succ,
    paddedRow]
  simp only [List.append_assoc]

theorem cells_black (n : Nat) : (cells n fun _ => zeros 3) = zeros (n * 3) :=
  cells_replicate n 3 0

theorem cells_padded {outW y : Nat} (hwidth : frame.width.toNat ≤ outW)
    (hy : y < frame.height.toNat) :
    (cells outW fun x => frame.pixelOrBlack x y) = paddedRow frame outW y := by
  have hsource : ∀ x < frame.width.toNat, frame.pixelOrBlack x y = frame.pixel x y :=
    fun x hx => if_pos ⟨hx, hy⟩
  have hblack : ∀ x, frame.pixelOrBlack (frame.width.toNat + x) y = zeros 3 :=
    fun x => if_neg fun h => by omega
  have hsplit := cells_add frame.width.toNat (outW - frame.width.toNat) fun x =>
    frame.pixelOrBlack x y
  rw [Nat.add_sub_cancel' hwidth, cells_congr hsource] at hsplit
  simp only [hblack] at hsplit
  rw [hsplit, cells_black, paddedRow]

theorem padded_pixels {outW outH : UInt32} (hwidth : frame.width.toNat ≤ outW.toNat)
    (hheight : frame.height.toNat ≤ outH.toNat) :
    (frame.padded outW outH).pixels =
      cells frame.height.toNat (paddedRow frame outW.toNat) ++
        zeros ((outH.toNat - frame.height.toNat) * (outW.toNat * 3)) := by
  have hsource : ∀ y < frame.height.toNat, (cells outW.toNat fun x => frame.pixelOrBlack x y) =
      paddedRow frame outW.toNat y := fun y hy => cells_padded hwidth hy
  have hblack : ∀ x y, frame.pixelOrBlack x (frame.height.toNat + y) = zeros 3 :=
    fun x y => if_neg fun h => by omega
  have hsplit := cells_add frame.height.toNat (outH.toNat - frame.height.toNat) fun y =>
    cells outW.toNat fun x => frame.pixelOrBlack x y
  rw [Nat.add_sub_cancel' hheight, cells_congr hsource] at hsplit
  simp only [hblack, cells_black] at hsplit
  rw [zeros, cells_replicate] at hsplit
  exact hsplit

theorem toNat_evenUp {n : UInt32} (h : evenUp n.toNat < 2 ^ 32) :
    (u32Add n (n % 2) : Outcome ε UInt32) = .ok (n + n % 2) ∧
      (n + n % 2).toNat = evenUp n.toNat ∧ ((n + n % 2 - n) / 2).toNat = 0 := by
  have hmod : (n % 2).toNat = n.toNat % 2 := UInt32.toNat_mod n 2
  have hsum : (n + n % 2).toNat = evenUp n.toNat := by
    rw [UInt32.toNat_add, hmod, ← evenUp, Nat.mod_eq_of_lt h]
  have hpad : n + n % 2 - n = n % 2 := by
    rw [UInt32.add_comm, UInt32.add_sub_cancel]
  refine ⟨if_pos (by rw [hmod]; exact h), hsum, ?_⟩
  rw [hpad, UInt32.toNat_div, hmod]
  exact Nat.div_eq_of_lt (Nat.mod_lt _ (by decide))

theorem le_evenUp (n : Nat) : n ≤ evenUp n := Nat.le_add_right _ _

theorem padded_self (hf : frame.WellFormed) :
    frame.padded frame.width frame.height = frame := by
  have hsame : frame.padded frame.width frame.height =
      Rgb24Frame.ofPixels frame.width frame.height frame.pixel :=
    Rgb24Frame.ofPixels_congr fun x hx y hy => if_pos ⟨hx, hy⟩
  rw [hsame]
  exact (Rgb24Frame.eq_ofPixels hf).symm

theorem padToEven_eq (hf : frame.WellFormed) (hfits : frame.PadFits) :
    (padToEven frame : Outcome ε Rgb24Frame) =
      .ok (frame.padded (frame.width + frame.width % 2) (frame.height + frame.height % 2)) := by
  obtain ⟨haddW, hwidth, hoffX⟩ := toNat_evenUp (ε := ε) hfits.width
  obtain ⟨haddH, hheight, hoffY⟩ := toNat_evenUp (ε := ε) hfits.height
  have hlimit : isizeMax < u64Bound := by decide
  have hbytes := hfits.bytes
  rw [padToEven, haddW, ok_bind, haddH, ok_bind]
  generalize hW : frame.width + frame.width % 2 = outW at *
  generalize hH : frame.height + frame.height % 2 = outH at *
  have hleW : frame.width.toNat ≤ outW.toNat := by
    rw [hwidth]
    exact le_evenUp _
  have hleH : frame.height.toNat ≤ outH.toNat := by
    rw [hheight]
    exact le_evenUp _
  rw [← hwidth, ← hheight] at hbytes
  by_cases hsame : (outW, outH) = (frame.width, frame.height)
  · obtain ⟨hsameW, hsameH⟩ := Prod.mk.inj hsame
    rw [if_pos hsame, hsameW, hsameH, padded_self hf, pure_eq]
  · have hloop := forRange_eq (ε := ε) (padRow frame (3 * outW.toNat) 0 0) (fun y =>
      cells y (paddedRow frame outW.toNat) ++ zeros ((outH.toNat - y) * (outW.toNat * 3)))
      fun y hy => padRow_eq hf hleW hleH (hbytes.trans_lt hlimit) hy
    have hrow : 3 * outW.toNat < u64Bound := by
      have hlt := outW.toNat_lt
      unfold u64Bound
      omega
    have hstart : zeros (3 * outW.toNat * outH.toNat) =
        cells 0 (paddedRow frame outW.toNat) ++
          zeros ((outH.toNat - 0) * (outW.toNat * 3)) := by
      rw [cells_zero, List.nil_append, Nat.sub_zero, Nat.mul_comm 3, Nat.mul_comm outH.toNat]
    rw [← hstart, ← padded_pixels hleW hleH] at hloop
    rw [if_neg hsame, Rgb24Frame.black_eq hbytes, ok_bind, u64Mul_of_lt hrow, ok_bind, hoffX, hoffY,
      hloop, ok_bind]
    rfl

structure Rgb24Frame.PaddedTo (frame out : Rgb24Frame) : Prop where
  wellFormed : out.WellFormed
  evenWidth : out.width.toNat % 2 = 0
  evenHeight : out.height.toNat % 2 = 0
  keeps : ∀ x < frame.width.toNat, ∀ y < frame.height.toNat,
    x < out.width.toNat ∧ y < out.height.toNat ∧ out.pixel x y = frame.pixel x y
  black : ∀ x < out.width.toNat, ∀ y < out.height.toNat,
    ¬(x < frame.width.toNat ∧ y < frame.height.toNat) → out.pixel x y = zeros 3

theorem length_pixelOrBlack (hf : frame.WellFormed) (x y : Nat) :
    (frame.pixelOrBlack x y).length = 3 := by
  by_cases hxy : x < frame.width.toNat ∧ y < frame.height.toNat
  · rw [Rgb24Frame.pixelOrBlack, if_pos hxy]
    exact Rgb24Frame.length_pixel hf hxy.1 hxy.2
  · rw [Rgb24Frame.pixelOrBlack, if_neg hxy, length_zeros]

theorem evenUp_mod (n : Nat) : evenUp n % 2 = 0 := by
  unfold evenUp
  omega

theorem paddedTo_padded (hf : frame.WellFormed) (hfits : frame.PadFits) :
    frame.PaddedTo
      (frame.padded (frame.width + frame.width % 2) (frame.height + frame.height % 2)) := by
  obtain ⟨-, hwidth, -⟩ := toNat_evenUp (ε := Empty) hfits.width
  obtain ⟨-, hheight, -⟩ := toNat_evenUp (ε := Empty) hfits.height
  generalize frame.width + frame.width % 2 = outW at *
  generalize frame.height + frame.height % 2 = outH at *
  have hthree : ∀ x < outW.toNat, ∀ y < outH.toNat, (frame.pixelOrBlack x y).length = 3 :=
    fun x _ y _ => length_pixelOrBlack hf x y
  have heven := evenUp_mod frame.width.toNat
  have heven' := evenUp_mod frame.height.toNat
  have hleW := le_evenUp frame.width.toNat
  have hleH := le_evenUp frame.height.toNat
  refine ⟨Rgb24Frame.wellFormed_ofPixels hthree, hwidth ▸ heven, hheight ▸ heven', ?_, ?_⟩
  · intro x hx y hy
    have hx' : x < outW.toNat := by omega
    have hy' : y < outH.toNat := by omega
    refine ⟨hx', hy', ?_⟩
    rw [Rgb24Frame.padded, Rgb24Frame.pixel_ofPixels hthree hx' hy']
    exact if_pos ⟨hx, hy⟩
  · intro x hx y hy hout
    rw [Rgb24Frame.padded, Rgb24Frame.pixel_ofPixels hthree hx hy]
    exact if_neg hout

end Pad

/-- The scaler, the padder and the factor by their definitions, wherever the
result can be allocated. -/
theorem scale_correct {frame : Rgb24Frame} (hf : frame.WellFormed) :
    (∀ s : UInt32, 1 ≤ s.toNat → frame.ScaleFits s.toNat →
      ∃ out, (scaleNn frame s : Outcome Empty Rgb24Frame) = .ok out ∧
        frame.ScaledBy s.toNat out) ∧
    (∀ a b : UInt32, 1 ≤ a.toNat → 1 ≤ b.toNat → b.toNat * a.toNat < 2 ^ 32 →
      frame.ScaleFits (b.toNat * a.toNat) →
      (scaleNn frame a >>= fun out => scaleNn out b : Outcome Empty Rgb24Frame) =
        scaleNn frame (a * b)) ∧
    (frame.PadFits → ∃ out, (padToEven frame : Outcome Empty Rgb24Frame) = .ok out ∧
      frame.PaddedTo out) ∧
    ∀ width height targetW targetH : UInt32, 1 ≤ width.toNat → 1 ≤ height.toNat →
      width ≤ targetW → height ≤ targetH → ∀ s : Nat,
        s ≤ (selectFactor width height targetW targetH).toNat ↔
          s * width.toNat ≤ targetW.toNat ∧ s * height.toNat ≤ targetH.toNat := by
  refine ⟨?_, ?_, ?_, ?_⟩
  · intro s hs hfits
    exact ⟨_, scaleNn_eq hf hs hfits, Rgb24Frame.scaledBy_scaled hf hfits⟩
  · intro a b ha hb hab hfits
    exact scaleNn_scaleNn hf ha hb hab hfits
  · intro hfits
    exact ⟨_, padToEven_eq hf hfits, paddedTo_padded hf hfits⟩
  · intro width height targetW targetH hwidth hheight hw hh s
    exact selectFactor_greatest hwidth hheight hw hh s

def threeColours : Rgb24Frame := ⟨3, 1, [255, 0, 0, 0, 255, 0, 0, 0, 255]⟩

theorem scale_correct_threeColours :
    (∃ out, (scaleNn threeColours 2 : Outcome Empty Rgb24Frame) = .ok out ∧
      threeColours.ScaledBy 2 out) ∧
    (scaleNn threeColours 2 >>= fun out => scaleNn out 5 : Outcome Empty Rgb24Frame) =
      scaleNn threeColours 10 ∧
    (∃ out, (padToEven threeColours : Outcome Empty Rgb24Frame) = .ok out ∧
      threeColours.PaddedTo out) ∧
    ∀ s : Nat, s ≤ (selectFactor 3 1 640 480).toNat ↔ s * 3 ≤ 640 ∧ s * 1 ≤ 480 := by
  obtain ⟨hscale, hcompose, hpad, hfactor⟩ := @scale_correct threeColours rfl
  have htwo : threeColours.ScaleFits 2 := ⟨by decide, by decide, by decide⟩
  have hten : threeColours.ScaleFits 10 := ⟨by decide, by decide, by decide⟩
  exact ⟨hscale 2 (by decide) htwo, hcompose 2 5 (by decide) (by decide) (by decide) hten,
    hpad ⟨by decide, by decide, by decide⟩,
    hfactor 3 1 640 480 (by decide) (by decide) (by decide) (by decide)⟩

def onePixel : Rgb24Frame := ⟨1, 1, zeros 3⟩

/-- One pixel scaled to the largest sides there are has no room, and a side of
`2 ^ 32 - 1` has no even side above it. -/
theorem scaleNn_panics :
    (onePixel.WellFormed ∧ 0xFFFFFFFF * onePixel.width.toNat < 2 ^ 32 ∧
      0xFFFFFFFF * onePixel.height.toNat < 2 ^ 32 ∧
      (scaleNn onePixel 0xFFFFFFFF : Outcome Empty Rgb24Frame) = .panic) ∧
    Rgb24Frame.WellFormed ⟨0xFFFFFFFF, 0, []⟩ ∧
      (padToEven ⟨0xFFFFFFFF, 0, []⟩ : Outcome Empty Rgb24Frame) = .panic := by
  refine ⟨⟨rfl, by decide, by decide, ?_⟩, rfl, ?_⟩
  · decide +kernel
  · decide +kernel

end ReplayRenderer
