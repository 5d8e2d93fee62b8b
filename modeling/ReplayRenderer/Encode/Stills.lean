import ReplayRenderer.Lib.Sample
import ReplayRenderer.Overlay.Font

/-!
What the two sheets of stills have in common: a background, the copy of a
frame onto it, and tiles on a pitch of tile and gutter. The copy is not
clipped, so a tile has to lie inside the sheet; there it shows the frame pixel
by pixel.
-/

namespace ReplayRenderer

open Lib Lib.Outcome

/-- Sheet and strip background. -/
def bg : Rgb := ⟨16, 16, 16⟩
def gutter : Nat := 2

abbrev IndexedFrame := UInt64 × Rgb24Frame

section Source

variable {ε : Type}

def solid (width height : UInt32) : Outcome ε Rgb24Frame := do
  let f ← Rgb24Frame.black width height
  let pixels ← forRange (fun i pixels => copyFromSlice pixels (i * 3) (i * 3 + 3) bg.bytes)
    f.pixels (f.pixels.length / 3)
  pure { f with pixels }

def blitTileRow (src : Rgb24Frame) (x0 y0 dstRow y : Nat) (dst : Rgb24Frame) :
    Outcome ε Rgb24Frame := do
  let dstY ← u32 (y0 + y)
  let start ← u64Mul dstY dstRow
  let left ← u64Mul 3 x0
  let start ← u64Add start left
  let row ← src.row (UInt32.ofNat y)
  let stop ← u64Add start row.length
  let pixels ← copyFromSlice dst.pixels start stop row
  pure { dst with pixels }

def blit (dst src : Rgb24Frame) (x0 y0 : Nat) : Outcome ε Rgb24Frame := do
  let dstRow ← u64Mul 3 dst.width.toNat
  forRange (blitTileRow src x0 y0 dstRow) dst src.height.toNat

/-- The greatest width and the greatest height, at least one. -/
def tileDims (selected : List IndexedFrame) : Nat × Nat :=
  let tw := (selected.map fun p => p.2.width.toNat).max?.getD 1
  let th := (selected.map fun p => p.2.height.toNat).max?.getD 1
  (max tw 1, max th 1)

/-- `GUTTER + n * (size + GUTTER)`: where tile `n` begins, and where `n` tiles
end. -/
def tileOffset (n size : Nat) : Outcome ε Nat := do
  let pitch ← u32 (size + gutter)
  let offset ← u32 (n * pitch)
  u32 (gutter + offset)

end Source

/-! ### The background -/

section Solid

variable {ε : Type} {width height : UInt32} {f : Rgb24Frame}

theorem solid_spec (hblack : (Rgb24Frame.black width height : Outcome ε _) = .ok f) :
    ∃ sheet, (solid width height : Outcome ε Rgb24Frame) = .ok sheet ∧
      sheet.Sized width height ∧
      ∀ x < width.toNat, ∀ y < height.toNat, sheet.pixel x y = bg.bytes := by
  have hf := Rgb24Frame.sized_of_black hblack
  have hlen : f.pixels.length = height.toNat * width.toNat * 3 := by
    rw [hf.length_eq]
    ring
  have hthree : ∀ i < height.toNat * width.toNat, bg.bytes.length = 3 := fun _ _ => rfl
  have hloop := forRange_eq (ε := ε)
    (fun i pixels => copyFromSlice pixels (i * 3) (i * 3 + 3) bg.bytes)
    (fun i => cells i (fun _ => bg.bytes) ++ f.pixels.drop (i * 3)) (n := f.pixels.length / 3)
    fun i hi => copyFromSlice_cells hlen hthree (by omega)
  have hcount : f.pixels.length / 3 = height.toNat * width.toNat := by omega
  rw [cells_zero, Nat.zero_mul, List.drop_zero, List.nil_append, hcount, ← hlen, List.drop_length,
    List.append_nil] at hloop
  have hsame : Rgb24Frame.Sized width height
      { f with pixels := cells (height.toNat * width.toNat) fun _ => bg.bytes } :=
    hf.withPixels ((length_cells hthree).trans hlen.symm)
  refine ⟨_, ?_, hsame, fun x hx y hy => ?_⟩
  · rw [solid, hblack, ok_bind, hcount, hloop, ok_bind, pure_eq]
  · have hindex : y * width.toNat + x < height.toNat * width.toNat := by
      have hrow : (y + 1) * width.toNat ≤ height.toNat * width.toNat := Nat.mul_le_mul_right _ hy
      rw [Nat.succ_mul] at hrow
      omega
    have hcell := cell_cells hthree hindex
    rw [cell, Nat.mul_comm _ 3] at hcell
    rw [Rgb24Frame.pixel, hsame.width_eq]
    exact hcell

theorem sized_of_solid {sheet : Rgb24Frame}
    (hsolid : (solid width height : Outcome ε Rgb24Frame) = .ok sheet) :
    sheet.Sized width height := by
  obtain ⟨f, hblack, -⟩ := bind_eq_ok.mp hsolid
  obtain ⟨sheet', hsolid', hsheet, -⟩ := solid_spec hblack
  obtain rfl := Outcome.ok.inj (hsolid.symm.trans hsolid')
  exact hsheet

end Solid

/-! ### The copy of a frame -/

/-- The operation puts the pixels of `src`, moved to `(x0, y0)`, at the points
of a set, and leaves the others alone. -/
abbrev Copies {ε : Type} (width height : UInt32) (src : Rgb24Frame) (x0 y0 : Int) :
    Set (Int × Int) → (Rgb24Frame → Outcome ε Rgb24Frame) → Prop :=
  Paints (Rgb24Frame.Sized width height) Rgb24Frame.pixelAt
    fun p _ => src.pixelAt (p.1 - x0, p.2 - y0)

section Blit

variable {ε : Type} {width height : UInt32} {src : Rgb24Frame} (hsrc : src.InMemory) {x0 y0 : Nat}
  (hx : x0 + src.width.toNat ≤ width.toNat) (hy : y0 + src.height.toNat ≤ height.toNat)

include hsrc hx hy

theorem blitTileRow_copies {y : Nat} (hrow : y < src.height.toNat) :
    Copies (ε := ε) width height src x0 y0 (rect x0 (y0 + y : Nat) src.width.toNat 1)
      (blitTileRow src x0 y0 (3 * width.toNat) y) := by
  intro dst hdst
  have hread := Rgb24Frame.row_eq (ε := ε) hsrc.wellFormed hsrc.sized.size_lt hrow
  have hthree := fun x hx => Rgb24Frame.length_pixel hsrc.wellFormed (x := x) hx hrow
  have hlen := length_cells hthree
  obtain ⟨pixels, hcopy, hdst', hin, hout⟩ := hdst.copyRow (ε := ε) hx
    (show y0 + y < height.toNat by omega) (hlen.trans (Nat.mul_comm _ 3))
  have hbytes := Rgb24Frame.Sized.offset_le hx (show y0 + y < height.toNat by omega)
  have hlt := hdst.size_lt
  have hheight := height.toNat_lt
  have hstart : (y0 + y) * (3 * width.toNat) + 3 * x0 = 3 * ((y0 + y) * width.toNat + x0) := by
    ring
  refine ⟨_, ?_, hdst', ?_, hout⟩
  · rw [blitTileRow, u32_of_lt (by omega), ok_bind, u64Mul_of_lt (by omega), ok_bind,
      u64Mul_of_lt (by omega), ok_bind, u64Add_of_lt (by omega), ok_bind, hread, ok_bind, hlen,
      u64Add_of_lt (by omega), ok_bind, hstart, Nat.mul_comm _ 3, hcopy, ok_bind, pure_eq]
  · intro p hp
    rw [hin hp]
    obtain ⟨x', y'⟩ := p
    rw [mem_rect] at hp
    simp only at hp ⊢
    obtain ⟨d, hd⟩ := Int.eq_ofNat_of_zero_le (show 0 ≤ x' - x0 by omega)
    have hd' : d < src.width.toNat := by omega
    have hy' : y' - y0 = (y : Int) := by omega
    have hcell := cell_cells hthree hd'
    rw [cell, Nat.mul_comm d] at hcell
    rw [hd, hy', Int.toNat_natCast, Rgb24Frame.pixelAt_natCast hd' hrow, hcell]

theorem blit_copies :
    Copies (ε := ε) width height src x0 y0 (rect x0 y0 src.width.toNat src.height.toNat)
      fun dst => blit dst src x0 y0 := by
  intro dst hdst
  have hrows := Paints.forRange (g := fun (p : Int × Int) _ => src.pixelAt (p.1 - x0, p.2 - y0))
    (fun _ _ => rfl) fun y hrow => blitTileRow_copies (ε := ε) hsrc hx hy (y := y) hrow
  have hunion : {p | ∃ y < src.height.toNat, p ∈ rect x0 (y0 + y : Nat) src.width.toNat 1} =
      rect x0 y0 src.width.toNat src.height.toNat := by
    ext p
    simp only [Set.mem_ofPred_eq, mem_rect]
    constructor
    · rintro ⟨y, hrow, hp⟩
      omega
    · intro hp
      exact ⟨(p.2 - y0).toNat, by omega, by omega⟩
  rw [hunion] at hrows
  obtain ⟨dst', hblit, hdst', hin, hout⟩ := hrows dst hdst
  refine ⟨dst', ?_, hdst', hin, hout⟩
  have hwidth := width.toNat_lt
  show blit dst src x0 y0 = _
  rw [blit, hdst.width_eq, u64Mul_of_lt (by unfold u64Bound; omega), ok_bind]
  exact hblit

end Blit

theorem pixel_of_copied {src sheet : Rgb24Frame} {x0 y0 x y : Nat}
    (hcopied : Set.EqOn sheet.pixelAt (fun p => src.pixelAt (p.1 - x0, p.2 - y0))
      (rect x0 y0 src.width.toNat src.height.toNat))
    (hwidth : x0 + src.width.toNat ≤ sheet.width.toNat)
    (hheight : y0 + src.height.toNat ≤ sheet.height.toNat) (hx : x < src.width.toNat)
    (hy : y < src.height.toNat) : sheet.pixel (x0 + x) (y0 + y) = src.pixel x y := by
  have hmem : (((x0 + x : Nat) : Int), ((y0 + y : Nat) : Int)) ∈
      rect x0 y0 src.width.toNat src.height.toNat := by
    rw [mem_rect]
    simp only
    omega
  refine Rgb24Frame.pixel_eq_of_pixelAt hx hy (by omega) (by omega) ((hcopied hmem).trans ?_)
  show src.pixelAt (((x0 + x : Nat) : Int) - x0, ((y0 + y : Nat) : Int) - y0) = _
  congr 2 <;> omega

/-! ### Tiles on their pitch -/

section Tiles

variable {ε : Type} {selected : List IndexedFrame} {entry : IndexedFrame}

theorem le_tileDims (hentry : entry ∈ selected) :
    entry.2.width.toNat ≤ (tileDims selected).1 ∧ entry.2.height.toNat ≤ (tileDims selected).2 := by
  have hbound : ∀ (f : IndexedFrame → Nat), f entry ≤ (selected.map f).max?.getD 1 := by
    intro f
    have hmem := List.mem_map_of_mem (f := f) hentry
    obtain ⟨m, hm⟩ := Option.ne_none_iff_exists'.mp
      (mt List.max?_eq_none_iff.mp (List.ne_nil_of_mem hmem))
    rw [hm, Option.getD_some]
    exact (List.max?_eq_some_iff.mp hm).2 _ hmem
  exact ⟨(hbound fun p => p.2.width.toNat).trans (Nat.le_max_left _ _),
    (hbound fun p => p.2.height.toNat).trans (Nat.le_max_left _ _)⟩

theorem tileDims_le {m : Nat} (hm : 1 ≤ m)
    (hall : ∀ p ∈ selected, p.2.width.toNat ≤ m ∧ p.2.height.toNat ≤ m) :
    (tileDims selected).1 ≤ m ∧ (tileDims selected).2 ≤ m := by
  have hbound : ∀ (f : IndexedFrame → Nat), (∀ p ∈ selected, f p ≤ m) →
      (selected.map f).max?.getD 1 ≤ m := by
    intro f hf
    cases hmax : (selected.map f).max? with
    | none => exact hm
    | some a =>
        obtain ⟨p, hp, rfl⟩ := List.mem_map.mp (List.max?_eq_some_iff.mp hmax).1
        exact hf p hp
  exact ⟨Nat.max_le.mpr ⟨hbound _ fun p hp => (hall p hp).1, hm⟩,
    Nat.max_le.mpr ⟨hbound _ fun p hp => (hall p hp).2, hm⟩⟩

theorem tileOffset_eq_ok {n size offset : Nat} :
    (tileOffset n size : Outcome ε Nat) = .ok offset ↔
      (size + gutter < 2 ^ 32 ∧ gutter + n * (size + gutter) < 2 ^ 32) ∧
        offset = gutter + n * (size + gutter) := by
  constructor
  · intro h
    obtain ⟨pitch, hpitch, h⟩ := bind_eq_ok.mp h
    obtain ⟨off, hoff, h⟩ := bind_eq_ok.mp h
    obtain ⟨hlt, rfl⟩ := u32_eq_ok.mp hpitch
    obtain ⟨-, rfl⟩ := u32_eq_ok.mp hoff
    obtain ⟨hlt', rfl⟩ := u32_eq_ok.mp h
    exact ⟨⟨hlt, hlt'⟩, rfl⟩
  · rintro ⟨⟨hpitch, hfits⟩, rfl⟩
    rw [tileOffset, u32_of_lt hpitch, ok_bind, u32_of_lt (by omega), ok_bind, u32_of_lt hfits]

theorem tileOffset_eq {n size : Nat} (hfits : gutter + n * (size + gutter) < 2 ^ 32)
    (hpitch : size + gutter < 2 ^ 32) :
    (tileOffset n size : Outcome ε Nat) = .ok (gutter + n * (size + gutter)) :=
  tileOffset_eq_ok.mpr ⟨⟨hpitch, hfits⟩, rfl⟩

/-- A tile ends a gutter before the next begins. -/
theorem tileOffset_lt {m n : Nat} (hmn : m < n) (size : Nat) :
    gutter + m * (size + gutter) + (size + gutter) ≤ gutter + n * (size + gutter) := by
  have hle : (m + 1) * (size + gutter) ≤ n * (size + gutter) := Nat.mul_le_mul_right _ hmn
  rw [Nat.succ_mul] at hle
  omega

end Tiles

end ReplayRenderer
