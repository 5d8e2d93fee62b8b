import ReplayRenderer.Frames.Rfp
import ReplayRenderer.Frames.Rgb24
import ReplayRenderer.Splice.Container

/-!
Native pixels to RGB24 by table lookup. The table of a format holds the
expansion of every masked pixel value, so a lookup is the expansion of the
channels; the guards of the conversion are exactly what keeps its loops inside
the native buffer.
-/

namespace ReplayRenderer

open Lib Lib.Outcome

inductive ConvertError where
  | unsupported (format : PixelFormat)
  | shortBuffer (len need : Nat)
  | badStride (stride row : UInt32)
  deriving DecidableEq, Repr

def expand5 (c : UInt16) : UInt8 := ((c <<< 3) ||| (c >>> 2)).toUInt8

def expand6 (c : UInt16) : UInt8 := ((c <<< 2) ||| (c >>> 4)).toUInt8

/-- One lookup table: native pixel value to three bytes. -/
structure Lut where
  table : List Bytes
  mask : UInt16

/-- `(0..n).map(entry).collect()`. -/
def tableOf (n : Nat) (entry : UInt16 → Bytes) : List Bytes :=
  (List.range n).map fun v => entry (UInt16.ofNat v)

def rgb555Entry (v : UInt16) : Bytes :=
  [expand5 ((v >>> 10) &&& 0x1F), expand5 ((v >>> 5) &&& 0x1F), expand5 (v &&& 0x1F)]

def bgr555Entry (v : UInt16) : Bytes :=
  [expand5 (v &&& 0x1F), expand5 ((v >>> 5) &&& 0x1F), expand5 ((v >>> 10) &&& 0x1F)]

def rgb565Entry (v : UInt16) : Bytes :=
  [expand5 ((v >>> 11) &&& 0x1F), expand6 ((v >>> 5) &&& 0x3F), expand5 (v &&& 0x1F)]

def Lut.forFormat (format : PixelFormat) : Outcome ConvertError Lut :=
  match format with
  | .rgb555Le => .ok { table := tableOf 0x8000 rgb555Entry, mask := 0x7FFF }
  | .bgr555Le => .ok { table := tableOf 0x8000 bgr555Entry, mask := 0x7FFF }
  | .rgb565Le => .ok { table := tableOf 0x10000 rgb565Entry, mask := 0xFFFF }
  | .indexed8 _ => .err (.unsupported format)

def Lut.convertPixel (lut : Lut) (row : Bytes) (x : Nat) (out : Bytes) :
    Outcome ConvertError Bytes := do
  let v ← u16At row (2 * x)
  let rgb ← Outcome.expect lut.table[(v &&& lut.mask).toNat]?
  pure (out ++ rgb)

def Lut.convertRow (lut : Lut) (native : Bytes) (desc : FramebufferDesc) (y : Nat) (out : Bytes) :
    Outcome ConvertError Bytes := do
  let start ← u64Mul y desc.strideBytes.toNat
  let row ← slice native start native.length
  forRange (lut.convertPixel row) out desc.width.toNat

def Lut.convert (lut : Lut) (native : Bytes) (desc : FramebufferDesc) :
    Outcome ConvertError Rgb24Frame := do
  let width := desc.width.toUInt32
  let height := desc.height.toUInt32
  let rowBytes ← Outcome.expect (checkedMulU32 width 2)
  rejectIf (desc.strideBytes < rowBytes) (.badStride desc.strideBytes rowBytes)
  -- The last row needs only its pixels, not a full stride.
  let need := (((checkedMul (height.toNat - 1) desc.strideBytes.toNat).bind fun n =>
    checkedAdd n rowBytes.toNat).filter fun _ => decide (0 < height)).getD 0
  rejectIf (native.length < need) (.shortBuffer native.length need)
  let cols ← u64Mul 3 width.toNat
  let capacity ← u64Mul cols height.toNat
  reserve capacity
  let pixels ← forRange (lut.convertRow native desc) [] height.toNat
  pure { width, height, pixels }

/-! ### The expansion of a pixel -/

/-- A channel of `bits` bits stretched to eight, its upper bits repeated below. -/
def expandChannel (bits c : Nat) : UInt8 :=
  UInt8.ofNat (c * 2 ^ (8 - bits) + c / 2 ^ (2 * bits - 8))

def PixelFormat.expand (format : PixelFormat) (v : Nat) : Bytes :=
  match format with
  | .rgb555Le =>
    [expandChannel 5 (v / 2 ^ 10 % 32), expandChannel 5 (v / 2 ^ 5 % 32), expandChannel 5 (v % 32)]
  | .bgr555Le =>
    [expandChannel 5 (v % 32), expandChannel 5 (v / 2 ^ 5 % 32), expandChannel 5 (v / 2 ^ 10 % 32)]
  | .rgb565Le =>
    [expandChannel 5 (v / 2 ^ 11 % 32), expandChannel 6 (v / 2 ^ 5 % 64), expandChannel 5 (v % 32)]
  | .indexed8 _ => []

theorem expand5_eq {c : UInt16} (h : c.toNat < 32) : expand5 c = expandChannel 5 c.toNat := by
  have hall : ∀ n < 32, expand5 (UInt16.ofNat n) = expandChannel 5 n := by decide
  have hc := hall c.toNat h
  rwa [UInt16.ofNat_toNat] at hc

theorem expand6_eq {c : UInt16} (h : c.toNat < 64) : expand6 c = expandChannel 6 c.toNat := by
  have hall : ∀ n < 64, expand6 (UInt16.ofNat n) = expandChannel 6 n := by decide
  have hc := hall c.toNat h
  rwa [UInt16.ofNat_toNat] at hc

theorem toNat_and_mask (v : UInt16) (bits : Nat) (h : bits ≤ 16) :
    (v &&& UInt16.ofNat (2 ^ bits - 1)).toNat = v.toNat % 2 ^ bits := by
  have hle : 2 ^ bits ≤ 2 ^ 16 := Nat.pow_le_pow_right (by decide) h
  rw [UInt16.toNat_and, UInt16.toNat_ofNat_of_lt' (show 2 ^ bits - 1 < 2 ^ 16 by
    have := Nat.two_pow_pos bits
    omega), Nat.and_two_pow_sub_one_eq_mod]

theorem toNat_field (v : UInt16) (shift : UInt16) (bits : Nat) (hshift : shift.toNat < 16)
    (h : bits ≤ 16) :
    ((v >>> shift) &&& UInt16.ofNat (2 ^ bits - 1)).toNat =
      v.toNat / 2 ^ shift.toNat % 2 ^ bits := by
  rw [toNat_and_mask _ bits h, UInt16.toNat_shiftRight, Nat.mod_eq_of_lt hshift,
    Nat.shiftRight_eq_div_pow]

theorem rgb555Entry_eq (v : UInt16) : rgb555Entry v = PixelFormat.rgb555Le.expand v.toNat := by
  have hr : ((v >>> 10) &&& 0x1F).toNat = v.toNat / 2 ^ 10 % 32 :=
    toNat_field v 10 5 (by decide) (by decide)
  have hg : ((v >>> 5) &&& 0x1F).toNat = v.toNat / 2 ^ 5 % 32 :=
    toNat_field v 5 5 (by decide) (by decide)
  have hb : (v &&& 0x1F).toNat = v.toNat % 32 := toNat_and_mask v 5 (by decide)
  rw [rgb555Entry, expand5_eq (by omega), expand5_eq (by omega), expand5_eq (by omega), hr, hg, hb,
    PixelFormat.expand]

theorem bgr555Entry_eq (v : UInt16) : bgr555Entry v = PixelFormat.bgr555Le.expand v.toNat := by
  have hr : (v &&& 0x1F).toNat = v.toNat % 32 := toNat_and_mask v 5 (by decide)
  have hg : ((v >>> 5) &&& 0x1F).toNat = v.toNat / 2 ^ 5 % 32 :=
    toNat_field v 5 5 (by decide) (by decide)
  have hb : ((v >>> 10) &&& 0x1F).toNat = v.toNat / 2 ^ 10 % 32 :=
    toNat_field v 10 5 (by decide) (by decide)
  rw [bgr555Entry, expand5_eq (by omega), expand5_eq (by omega), expand5_eq (by omega), hr, hg, hb,
    PixelFormat.expand]

theorem rgb565Entry_eq (v : UInt16) : rgb565Entry v = PixelFormat.rgb565Le.expand v.toNat := by
  have hr : ((v >>> 11) &&& 0x1F).toNat = v.toNat / 2 ^ 11 % 32 :=
    toNat_field v 11 5 (by decide) (by decide)
  have hg : ((v >>> 5) &&& 0x3F).toNat = v.toNat / 2 ^ 5 % 64 :=
    toNat_field v 5 6 (by decide) (by decide)
  have hb : (v &&& 0x1F).toNat = v.toNat % 32 := toNat_and_mask v 5 (by decide)
  rw [rgb565Entry, expand5_eq (by omega), expand6_eq (by omega), expand5_eq (by omega), hr, hg, hb,
    PixelFormat.expand]

/-- Bit 15 of a 555 pixel is nobody's. -/
theorem PixelFormat.expand_mod (v : Nat) :
    PixelFormat.rgb555Le.expand (v % 2 ^ 15) = PixelFormat.rgb555Le.expand v ∧
      PixelFormat.bgr555Le.expand (v % 2 ^ 15) = PixelFormat.bgr555Le.expand v := by
  have hr : v % 2 ^ 15 / 2 ^ 10 % 32 = v / 2 ^ 10 % 32 := by omega
  have hg : v % 2 ^ 15 / 2 ^ 5 % 32 = v / 2 ^ 5 % 32 := by omega
  have hb : v % 2 ^ 15 % 32 = v % 32 := by omega
  constructor <;> rw [PixelFormat.expand, PixelFormat.expand, hr, hg, hb]

theorem getElem?_tableOf {n : Nat} {entry : UInt16 → Bytes} {v : UInt16} (h : v.toNat < n) :
    (tableOf n entry)[v.toNat]? = some (entry v) := by
  rw [tableOf, List.getElem?_map, List.getElem?_range h, Option.map_some, UInt16.ofNat_toNat]

theorem lookup_eq {format : PixelFormat} {lut : Lut} (hlut : Lut.forFormat format = .ok lut)
    (v : UInt16) : lut.table[(v &&& lut.mask).toNat]? = some (format.expand v.toNat) := by
  have hmask : (v &&& 0x7FFF).toNat = v.toNat % 2 ^ 15 := toNat_and_mask v 15 (by decide)
  have hfull : (v &&& 0xFFFF).toNat = v.toNat % 2 ^ 16 := toNat_and_mask v 16 (by decide)
  have hlt := v.toNat_lt
  cases format with
  | rgb555Le =>
      obtain rfl := Outcome.ok.inj hlut
      rw [getElem?_tableOf (by simp only [hmask]; omega), rgb555Entry_eq, hmask,
        (PixelFormat.expand_mod _).1]
  | bgr555Le =>
      obtain rfl := Outcome.ok.inj hlut
      rw [getElem?_tableOf (by simp only [hmask]; omega), bgr555Entry_eq, hmask,
        (PixelFormat.expand_mod _).2]
  | rgb565Le =>
      obtain rfl := Outcome.ok.inj hlut
      rw [getElem?_tableOf (by simp only [hfull]; omega), rgb565Entry_eq, hfull,
        Nat.mod_eq_of_lt hlt]
  | indexed8 gpa => cases hlut

/-! ### The conversion -/

/-- How far into the native buffer the last pixel reaches. -/
def FramebufferDesc.needed (desc : FramebufferDesc) : Nat :=
  if desc.height = 0 then 0
  else (desc.height.toNat - 1) * desc.strideBytes.toNat + 2 * desc.width.toNat

section Conversion

variable {desc : FramebufferDesc} {lut : Lut} {native : Bytes}

theorem FramebufferDesc.row_le_needed (desc : FramebufferDesc) {y : Nat}
    (hy : y < desc.height.toNat) :
    y * desc.strideBytes.toNat + 2 * desc.width.toNat ≤ desc.needed := by
  have hheight : desc.height ≠ 0 := by
    rintro hzero
    rw [hzero] at hy
    exact Nat.not_lt_zero y hy
  have hrows : y * desc.strideBytes.toNat ≤
      (desc.height.toNat - 1) * desc.strideBytes.toNat := Nat.mul_le_mul_right _ (by omega)
  rw [FramebufferDesc.needed, if_neg hheight]
  omega

theorem toNat_rowBytes (desc : FramebufferDesc) :
    (desc.width.toUInt32 * 2).toNat = 2 * desc.width.toNat := by
  have hwidth := desc.width.toNat_lt
  rw [UInt32.toNat_mul, UInt16.toNat_toUInt32, show (2 : UInt32).toNat = 2 from rfl]
  omega

theorem checkedMulU32_width (desc : FramebufferDesc) :
    checkedMulU32 desc.width.toUInt32 2 = some (desc.width.toUInt32 * 2) := by
  have hwidth := desc.width.toNat_lt
  exact if_pos (by rw [UInt16.toNat_toUInt32, show (2 : UInt32).toNat = 2 from rfl]; omega)

/-- The checked arithmetic of the guard never overflows. -/
theorem need_eq (desc : FramebufferDesc) :
    (((checkedMul (desc.height.toNat - 1) desc.strideBytes.toNat).bind fun n =>
      checkedAdd n (desc.width.toUInt32 * 2).toNat).filter
        fun _ => decide (0 < desc.height.toUInt32)).getD 0 = desc.needed := by
  have hwidth := desc.width.toNat_lt
  have hheight := desc.height.toNat_lt
  have hrows : (desc.height.toNat - 1) * desc.strideBytes.toNat ≤ 2 ^ 16 * 2 ^ 32 :=
    Nat.mul_le_mul (by omega) desc.strideBytes.toNat_lt.le
  rw [toNat_rowBytes, checkedMul, if_pos (by unfold u64Bound; omega),
    Option.bind_some, checkedAdd, if_pos (by unfold u64Bound; omega), FramebufferDesc.needed]
  have hpos : 0 < desc.height.toUInt32 ↔ desc.height ≠ 0 := by
    rw [UInt32.lt_iff_toNat_lt, UInt16.toNat_toUInt32, ← UInt16.toNat_inj.ne]
    exact Nat.pos_iff_ne_zero
  by_cases hzero : desc.height = 0
  · rw [decide_eq_false (fun h => hpos.mp h hzero), if_pos hzero]
    rfl
  · rw [decide_eq_true (hpos.mpr hzero), if_neg hzero]
    rfl

theorem convert_eq (lut : Lut) (native : Bytes) (desc : FramebufferDesc) :
    lut.convert native desc = (do
      rejectIf (desc.strideBytes < desc.width.toUInt32 * 2)
        (.badStride desc.strideBytes (desc.width.toUInt32 * 2))
      rejectIf (native.length < desc.needed) (.shortBuffer native.length desc.needed)
      let pixels ← forRange (lut.convertRow native desc) [] desc.height.toNat
      pure { width := desc.width.toUInt32, height := desc.height.toUInt32, pixels }) := by
  have hpixels : 3 * desc.width.toNat * desc.height.toNat ≤ 3 * 2 ^ 16 * 2 ^ 16 :=
    Nat.mul_le_mul (Nat.mul_le_mul_left 3 desc.width.toNat_lt.le) desc.height.toNat_lt.le
  have hwidth := desc.width.toNat_lt
  have hcols : (u64Mul 3 desc.width.toNat : Outcome ConvertError Nat) = .ok _ :=
    u64Mul_of_lt (by unfold u64Bound; omega)
  have hcapacity : (u64Mul (3 * desc.width.toNat) desc.height.toNat : Outcome ConvertError Nat) =
      .ok _ := u64Mul_of_lt (by unfold u64Bound; omega)
  have hreserve : (reserve (3 * desc.width.toNat * desc.height.toNat) :
      Outcome ConvertError Unit) = .ok () := require_pos (by unfold isizeMax; omega)
  simp only [Lut.convert, checkedMulU32_width, expect_some, ok_bind, UInt16.toNat_toUInt32,
    need_eq, hcols, hcapacity, hreserve]

theorem convertPixel_eq {v : Nat → Nat → UInt16}
    (hlut : Lut.forFormat desc.pixelFormat = .ok lut) (hlen : desc.needed ≤ native.length)
    (hv : ∀ x < desc.width.toNat, ∀ y < desc.height.toNat,
      SitsAt native (y * desc.strideBytes.toNat + 2 * x) (le16 (v x y))) {x y : Nat}
    (hx : x < desc.width.toNat) (hy : y < desc.height.toNat) (out : Bytes) :
    lut.convertPixel (native.drop (y * desc.strideBytes.toNat)) x out =
      .ok (out ++ desc.pixelFormat.expand (v x y).toNat) := by
  have hstart := desc.row_le_needed hy
  have hvalue : (u16At (native.drop (y * desc.strideBytes.toNat)) (2 * x) :
      Outcome ConvertError UInt16) = .ok (v x y) := by
    rw [u16At_eq_ok, sitsAt_drop (by omega)]
    exact hv x hx y hy
  rw [Lut.convertPixel, hvalue, ok_bind, lookup_eq hlut, expect_some, ok_bind, pure_eq]

theorem convertRow_eq {v : Nat → Nat → UInt16} (hlut : Lut.forFormat desc.pixelFormat = .ok lut)
    (hlen : desc.needed ≤ native.length)
    (hv : ∀ x < desc.width.toNat, ∀ y < desc.height.toNat,
      SitsAt native (y * desc.strideBytes.toNat + 2 * x) (le16 (v x y))) {y : Nat}
    (hy : y < desc.height.toNat) (out : Bytes) :
    lut.convertRow native desc y out = .ok (out ++ cells desc.width.toNat fun x =>
      desc.pixelFormat.expand (v x y).toNat) := by
  have hstart := desc.row_le_needed hy
  have hbound : y * desc.strideBytes.toNat ≤ 2 ^ 16 * 2 ^ 32 :=
    Nat.mul_le_mul (hy.trans desc.height.toNat_lt).le desc.strideBytes.toNat_lt.le
  rw [Lut.convertRow, u64Mul_of_lt (by unfold u64Bound; omega), ok_bind,
    slice_to_end (by omega), ok_bind]
  have hloop := forRange_eq (lut.convertPixel (native.drop (y * desc.strideBytes.toNat)))
    (fun x => out ++ cells x fun x => desc.pixelFormat.expand (v x y).toNat) fun x hx => by
      rw [convertPixel_eq hlut hlen hv hx hy, cells_succ, List.append_assoc]
  rwa [cells_zero, List.append_nil] at hloop

theorem exists_native (hlen : desc.needed ≤ native.length) :
    ∃ v : Nat → Nat → UInt16, ∀ x < desc.width.toNat, ∀ y < desc.height.toNat,
      SitsAt native (y * desc.strideBytes.toNat + 2 * x) (le16 (v x y)) := by
  have hat : ∀ x y : Nat, ∃ v : UInt16, x < desc.width.toNat → y < desc.height.toNat →
      SitsAt native (y * desc.strideBytes.toNat + 2 * x) (le16 v) := by
    intro x y
    by_cases hxy : x < desc.width.toNat ∧ y < desc.height.toNat
    · have hend := desc.row_le_needed hxy.2
      obtain ⟨v, hv⟩ := exists_sitsAt_le16 native
        (y * desc.strideBytes.toNat + 2 * x) (by omega)
      exact ⟨v, fun _ _ => hv⟩
    · exact ⟨0, fun hx hy => absurd ⟨hx, hy⟩ hxy⟩
  choose v hv using hat
  exact ⟨v, fun x hx y hy => hv x y hx hy⟩

theorem convert_of_fits {v : Nat → Nat → UInt16}
    (hlut : Lut.forFormat desc.pixelFormat = .ok lut)
    (hstride : 2 * desc.width.toNat ≤ desc.strideBytes.toNat)
    (hlen : desc.needed ≤ native.length)
    (hv : ∀ x < desc.width.toNat, ∀ y < desc.height.toNat,
      SitsAt native (y * desc.strideBytes.toNat + 2 * x) (le16 (v x y))) :
    lut.convert native desc = .ok (Rgb24Frame.ofPixels desc.width.toUInt32 desc.height.toUInt32
      fun x y => desc.pixelFormat.expand (v x y).toNat) := by
  have hloop := forRange_eq (lut.convertRow native desc)
    (fun y => cells y fun y => cells desc.width.toNat fun x =>
      desc.pixelFormat.expand (v x y).toNat) fun y hy => by
        rw [convertRow_eq hlut hlen hv hy, cells_succ]
  rw [cells_zero] at hloop
  have hrow : ¬desc.strideBytes < desc.width.toUInt32 * 2 := by
    rw [UInt32.lt_iff_toNat_lt, toNat_rowBytes]
    omega
  rw [convert_eq, rejectIf_neg hrow, ok_bind, rejectIf_neg (by omega), ok_bind, hloop]
  simp only [Rgb24Frame.ofPixels, UInt16.toNat_toUInt32]
  rfl

theorem length_expand (h16 : ∀ gpa, desc.pixelFormat ≠ .indexed8 gpa) (v : Nat) :
    (desc.pixelFormat.expand v).length = 3 := by
  cases hformat : desc.pixelFormat with
  | indexed8 gpa => exact absurd hformat (h16 gpa)
  | _ => rfl

theorem exists_lut (h16 : ∀ gpa, desc.pixelFormat ≠ .indexed8 gpa) :
    ∃ lut, Lut.forFormat desc.pixelFormat = .ok lut := by
  cases hformat : desc.pixelFormat with
  | indexed8 gpa => exact absurd hformat (h16 gpa)
  | _ => exact ⟨_, rfl⟩

/-- The guards are exact. -/
theorem convert_isOk_iff (hlut : Lut.forFormat desc.pixelFormat = .ok lut) :
    (∃ frame, lut.convert native desc = .ok frame) ↔
      2 * desc.width.toNat ≤ desc.strideBytes.toNat ∧ desc.needed ≤ native.length := by
  constructor
  · rintro ⟨frame, hframe⟩
    rw [convert_eq] at hframe
    obtain ⟨_, hstride, hframe⟩ := bind_eq_ok.mp hframe
    obtain ⟨_, hlen, -⟩ := bind_eq_ok.mp hframe
    rw [rejectIf_eq_ok, UInt32.lt_iff_toNat_lt, toNat_rowBytes] at hstride
    rw [rejectIf_eq_ok] at hlen
    omega
  · rintro ⟨hstride, hlen⟩
    obtain ⟨v, hv⟩ := exists_native hlen
    exact ⟨_, convert_of_fits hlut hstride hlen hv⟩

theorem convert_ne_panic (hlut : Lut.forFormat desc.pixelFormat = .ok lut) :
    lut.convert native desc ≠ .panic := by
  intro hpanic
  by_cases hfits : 2 * desc.width.toNat ≤ desc.strideBytes.toNat ∧ desc.needed ≤ native.length
  · obtain ⟨frame, hframe⟩ := (convert_isOk_iff hlut).mpr hfits
    rw [hframe] at hpanic
    cases hpanic
  · rw [convert_eq, bind_eq_panic] at hpanic
    obtain hrow | ⟨_, hrow, hpanic⟩ := hpanic
    · exact rejectIf_ne_panic hrow
    rw [rejectIf_eq_ok, UInt32.lt_iff_toNat_lt, toNat_rowBytes] at hrow
    rw [rejectIf_pos (by omega)] at hpanic
    cases hpanic

structure ConvertedFrom (desc : FramebufferDesc) (native : Bytes) (frame : Rgb24Frame) :
    Prop where
  width : frame.width.toNat = desc.width.toNat
  height : frame.height.toNat = desc.height.toNat
  length : frame.pixels.length = 3 * desc.width.toNat * desc.height.toNat
  pixel : ∀ x < desc.width.toNat, ∀ y < desc.height.toNat, ∃ v : UInt16,
    (u16At native (y * desc.strideBytes.toNat + 2 * x) : Outcome Empty UInt16) = .ok v ∧
      frame.pixel x y = desc.pixelFormat.expand v.toNat

theorem convertedFrom_of_ok (h16 : ∀ gpa, desc.pixelFormat ≠ .indexed8 gpa)
    (hlut : Lut.forFormat desc.pixelFormat = .ok lut) {frame : Rgb24Frame}
    (hframe : lut.convert native desc = .ok frame) : ConvertedFrom desc native frame := by
  obtain ⟨hstride, hlen⟩ := (convert_isOk_iff hlut).mp ⟨frame, hframe⟩
  obtain ⟨v, hv⟩ := exists_native hlen
  obtain rfl := Outcome.ok.inj ((convert_of_fits hlut hstride hlen hv).symm.trans hframe)
  have hthree : ∀ x < desc.width.toUInt32.toNat, ∀ y < desc.height.toUInt32.toNat,
      (desc.pixelFormat.expand (v x y).toNat).length = 3 := fun _ _ _ _ => length_expand h16 _
  have hwidth : desc.width.toUInt32.toNat = desc.width.toNat := UInt16.toNat_toUInt32 _
  have hheight : desc.height.toUInt32.toNat = desc.height.toNat := UInt16.toNat_toUInt32 _
  refine ⟨hwidth, hheight, ?_, fun x hx y hy => ⟨v x y, u16At_eq_ok.mpr (hv x hx y hy), ?_⟩⟩
  · have hwell := Rgb24Frame.wellFormed_ofPixels hthree
    rw [Rgb24Frame.WellFormed] at hwell
    rw [hwell, ← hwidth, ← hheight]
    rfl
  · exact Rgb24Frame.pixel_ofPixels hthree (hwidth ▸ hx) (hheight ▸ hy)

/-- Only the pixels of the buffer count. -/
theorem convert_congr {native' : Bytes} (hlut : Lut.forFormat desc.pixelFormat = .ok lut)
    (hlen : desc.needed ≤ native'.length)
    (hsame : ∀ x < desc.width.toNat, ∀ y < desc.height.toNat,
      (u16At native' (y * desc.strideBytes.toNat + 2 * x) : Outcome Empty UInt16) =
        u16At native (y * desc.strideBytes.toNat + 2 * x)) {frame : Rgb24Frame}
    (hframe : lut.convert native desc = .ok frame) : lut.convert native' desc = .ok frame := by
  obtain ⟨hstride, hlenNative⟩ := (convert_isOk_iff hlut).mp ⟨frame, hframe⟩
  obtain ⟨v, hv⟩ := exists_native hlenNative
  have hv' : ∀ x < desc.width.toNat, ∀ y < desc.height.toNat,
      SitsAt native' (y * desc.strideBytes.toNat + 2 * x) (le16 (v x y)) := by
    intro x hx y hy
    rw [← u16At_eq_ok (ε := Empty), hsame x hx y hy, u16At_eq_ok]
    exact hv x hx y hy
  rw [convert_of_fits hlut hstride hlen hv', ← hframe,
    convert_of_fits hlut hstride hlenNative hv]

end Conversion

/-- The conversion is total on 16-bit formats, its guards are exactly what it
needs, and the frame holds the expansion of every pixel and nothing else of
the buffer. -/
theorem convert_correct {desc : FramebufferDesc}
    (h16 : ∀ gpa, desc.pixelFormat ≠ .indexed8 gpa) :
    ∃ lut, Lut.forFormat desc.pixelFormat = .ok lut ∧ ∀ native : Bytes,
      ((∃ frame, lut.convert native desc = .ok frame) ↔
        2 * desc.width.toNat ≤ desc.strideBytes.toNat ∧ desc.needed ≤ native.length) ∧
      lut.convert native desc ≠ .panic ∧
      ∀ frame, lut.convert native desc = .ok frame → ConvertedFrom desc native frame ∧
        ∀ native' : Bytes, desc.needed ≤ native'.length →
          (∀ x < desc.width.toNat, ∀ y < desc.height.toNat,
            (u16At native' (y * desc.strideBytes.toNat + 2 * x) : Outcome Empty UInt16) =
              u16At native (y * desc.strideBytes.toNat + 2 * x)) →
          lut.convert native' desc = .ok frame := by
  obtain ⟨lut, hlut⟩ := exists_lut h16
  refine ⟨lut, hlut, fun native => ⟨convert_isOk_iff hlut, convert_ne_panic hlut,
    fun frame hframe => ⟨convertedFrom_of_ok h16 hlut hframe, ?_⟩⟩⟩
  intro native' hlen hsame
  exact convert_congr hlut hlen hsame hframe

def slackDesc : FramebufferDesc :=
  { gpaBase := 0
    width := 2
    height := 2
    strideBytes := 6
    pixelFormat := .rgb555Le }

theorem convert_correct_slack :
    ∃ lut, Lut.forFormat slackDesc.pixelFormat = .ok lut ∧ ∀ native : Bytes,
      ((∃ frame, lut.convert native slackDesc = .ok frame) ↔
        2 * slackDesc.width.toNat ≤ slackDesc.strideBytes.toNat ∧
          slackDesc.needed ≤ native.length) ∧
      lut.convert native slackDesc ≠ .panic ∧
      ∀ frame, lut.convert native slackDesc = .ok frame → ConvertedFrom slackDesc native frame ∧
        ∀ native' : Bytes, slackDesc.needed ≤ native'.length →
          (∀ x < slackDesc.width.toNat, ∀ y < slackDesc.height.toNat,
            (u16At native' (y * slackDesc.strideBytes.toNat + 2 * x) : Outcome Empty UInt16) =
              u16At native (y * slackDesc.strideBytes.toNat + 2 * x)) →
          lut.convert native' slackDesc = .ok frame :=
  convert_correct (by simp [slackDesc])

end ReplayRenderer
