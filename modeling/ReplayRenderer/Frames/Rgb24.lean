import ReplayRenderer.Lib.Bytes
import ReplayRenderer.Lib.Footprint

/-!
RGB24 frames, and frames as functions of their coordinates. A frame whose
buffer has the length its dimensions ask for is its rows one after the other,
each row its pixels one after the other, and so is known by its pixels.
-/

namespace ReplayRenderer

open Lib Lib.Outcome

/-- `isize::MAX`, the largest allocation there is. -/
def isizeMax : Nat := 2 ^ 63 - 1

/-- `Vec::with_capacity(n)` and `vec![0u8; n]` panic past it. -/
def reserve {ε : Type} (n : Nat) : Outcome ε Unit := require (n ≤ isizeMax)

/-- `a.checked_mul(b)` on `u32`. -/
def checkedMulU32 (a b : UInt32) : Option UInt32 :=
  if a.toNat * b.toNat < 2 ^ 32 then some (a * b) else none

/-- A tightly packed frame, three bytes a pixel, row by row. -/
structure Rgb24Frame where
  width : UInt32
  height : UInt32
  pixels : Bytes
  deriving DecidableEq, Repr

section Source

variable {ε : Type}

def Rgb24Frame.black (width height : UInt32) : Outcome ε Rgb24Frame := do
  let row ← u64Mul 3 width.toNat
  let len ← u64Mul row height.toNat
  reserve len
  pure { width, height, pixels := zeros len }

def Rgb24Frame.row (f : Rgb24Frame) (y : UInt32) : Outcome ε Bytes := do
  let w ← u64Mul 3 f.width.toNat
  let start ← u64Mul y.toNat w
  let stop ← u64Mul (y.toNat + 1) w
  slice f.pixels start stop

end Source

/-! ### Frames by their pixels -/

def Rgb24Frame.pixel (f : Rgb24Frame) (x y : Nat) : Bytes :=
  (f.pixels.drop (3 * (y * f.width.toNat + x))).take 3

def Rgb24Frame.WellFormed (f : Rgb24Frame) : Prop :=
  f.pixels.length = 3 * f.width.toNat * f.height.toNat

def Rgb24Frame.ofPixels (width height : UInt32) (p : Nat → Nat → Bytes) : Rgb24Frame where
  width := width
  height := height
  pixels := cells height.toNat fun y => cells width.toNat fun x => p x y

section Pixels

variable {ε : Type} {f : Rgb24Frame} {width height : UInt32} {p q : Nat → Nat → Bytes}

theorem Rgb24Frame.wellFormed_iff :
    f.WellFormed ↔ f.pixels.length = f.height.toNat * (f.width.toNat * 3) := by
  rw [Rgb24Frame.WellFormed, Nat.mul_comm 3, Nat.mul_comm f.height.toNat]

theorem Rgb24Frame.pixel_eq_cell {x y : Nat} (hx : x < f.width.toNat) :
    f.pixel x y = cell 3 (cell (f.width.toNat * 3) f.pixels y) x := by
  have hroom : x * 3 + 3 ≤ f.width.toNat * 3 := by omega
  have hindex : 3 * (y * f.width.toNat + x) = y * (f.width.toNat * 3) + x * 3 := by ring
  rw [Rgb24Frame.pixel, hindex, cell, cell, List.drop_take, List.take_take, List.drop_drop,
    Nat.min_eq_left (by omega)]

theorem Rgb24Frame.length_pixel (hf : f.WellFormed) {x y : Nat} (hx : x < f.width.toNat)
    (hy : y < f.height.toNat) : (f.pixel x y).length = 3 := by
  rw [Rgb24Frame.pixel_eq_cell hx]
  exact length_cell (length_cell (Rgb24Frame.wellFormed_iff.mp hf) hy) hx

theorem Rgb24Frame.cells_pixel (hf : f.WellFormed) {y : Nat} (hy : y < f.height.toNat) :
    (cells f.width.toNat fun x => f.pixel x y) = cell (f.width.toNat * 3) f.pixels y := by
  rw [← cells_cell (length_cell (Rgb24Frame.wellFormed_iff.mp hf) hy)]
  exact cells_congr fun x hx => Rgb24Frame.pixel_eq_cell hx

/-- A well-formed frame is what its pixels say. -/
theorem Rgb24Frame.eq_ofPixels (hf : f.WellFormed) :
    f = Rgb24Frame.ofPixels f.width f.height f.pixel := by
  have hrows : cells f.height.toNat (fun y => cells f.width.toNat fun x => f.pixel x y) =
      f.pixels := by
    rw [← cells_cell (Rgb24Frame.wellFormed_iff.mp hf)]
    exact cells_congr fun y hy => Rgb24Frame.cells_pixel hf hy
  obtain ⟨width, height, pixels⟩ := f
  exact congrArg (Rgb24Frame.mk width height) hrows.symm

theorem Rgb24Frame.ofPixels_congr
    (h : ∀ x < width.toNat, ∀ y < height.toNat, p x y = q x y) :
    Rgb24Frame.ofPixels width height p = Rgb24Frame.ofPixels width height q := by
  rw [Rgb24Frame.ofPixels, Rgb24Frame.ofPixels]
  congr 1
  exact cells_congr fun y hy => cells_congr fun x hx => h x hx y hy

theorem Rgb24Frame.wellFormed_ofPixels
    (hp : ∀ x < width.toNat, ∀ y < height.toNat, (p x y).length = 3) :
    (Rgb24Frame.ofPixels width height p).WellFormed :=
  Rgb24Frame.wellFormed_iff.mpr
    (length_cells fun y hy => length_cells fun x hx => hp x hx y hy)

theorem Rgb24Frame.pixel_ofPixels
    (hp : ∀ x < width.toNat, ∀ y < height.toNat, (p x y).length = 3) {x y : Nat}
    (hx : x < width.toNat) (hy : y < height.toNat) :
    (Rgb24Frame.ofPixels width height p).pixel x y = p x y := by
  have hrow := fun y hy => length_cells (k := 3) fun x hx => hp x hx y hy
  rw [Rgb24Frame.pixel_eq_cell hx, Rgb24Frame.ofPixels, cell_cells hrow hy,
    cell_cells (fun x hx => hp x hx y hy) hx]

theorem Rgb24Frame.row_eq (hf : f.WellFormed)
    (hfits : 3 * f.width.toNat * f.height.toNat < u64Bound) {y : Nat}
    (hy : y < f.height.toNat) :
    (f.row (UInt32.ofNat y) : Outcome ε Bytes) = .ok (cells f.width.toNat fun x => f.pixel x y) := by
  have hindex : (UInt32.ofNat y).toNat = y :=
    UInt32.toNat_ofNat_of_lt' (hy.trans f.height.toNat_lt)
  have hstop : (y + 1) * (3 * f.width.toNat) ≤ 3 * f.width.toNat * f.height.toNat := by
    rw [Nat.mul_comm]
    exact Nat.mul_le_mul_left _ hy
  have hstart : y * (3 * f.width.toNat) ≤ (y + 1) * (3 * f.width.toNat) :=
    Nat.mul_le_mul_right _ (Nat.le_succ _)
  have hw : 3 * f.width.toNat ≤ (y + 1) * (3 * f.width.toNat) :=
    Nat.le_mul_of_pos_left _ (Nat.succ_pos _)
  have hlen : f.pixels.length = 3 * f.width.toNat * f.height.toNat := hf
  rw [Rgb24Frame.row, hindex, u64Mul_of_lt (by omega), ok_bind, u64Mul_of_lt (by omega), ok_bind,
    u64Mul_of_lt (by omega), ok_bind, slice, if_pos ⟨hstart, by omega⟩,
    Rgb24Frame.cells_pixel hf hy, cell,
    Nat.succ_mul, Nat.add_sub_cancel_left, Nat.mul_comm 3]

end Pixels

/-! ### Frames that are written to -/

/-- The pixel at a point of the plane, where the frame has one. -/
def Rgb24Frame.pixelAt (f : Rgb24Frame) (p : Int × Int) : Option Bytes :=
  if (0 ≤ p.1 ∧ p.1 < f.width.toNat) ∧ 0 ≤ p.2 ∧ p.2 < f.height.toNat then
    some (f.pixel p.1.toNat p.2.toNat)
  else none

/-- A well-formed frame whose buffer is a `Vec`, which has no more than
`isize::MAX` bytes. -/
structure Rgb24Frame.InMemory (f : Rgb24Frame) : Prop where
  wellFormed : f.WellFormed
  allocated : f.pixels.length ≤ isizeMax

structure Rgb24Frame.Sized (width height : UInt32) (f : Rgb24Frame) : Prop
    extends f.InMemory where
  width_eq : f.width = width
  height_eq : f.height = height

section Written

variable {ε : Type} {width height : UInt32} {f : Rgb24Frame}

theorem Rgb24Frame.pixelAt_natCast {x y : Nat} (hx : x < f.width.toNat) (hy : y < f.height.toNat) :
    f.pixelAt (x, y) = some (f.pixel x y) := by
  rw [Rgb24Frame.pixelAt, if_pos (by simp only; omega)]
  rfl

theorem Rgb24Frame.pixel_eq_of_pixelAt {f' : Rgb24Frame} {x y x' y' : Nat}
    (hx : x < f.width.toNat) (hy : y < f.height.toNat) (hx' : x' < f'.width.toNat)
    (hy' : y' < f'.height.toNat) (h : f'.pixelAt (x', y') = f.pixelAt (x, y)) :
    f'.pixel x' y' = f.pixel x y := by
  rw [Rgb24Frame.pixelAt_natCast hx hy, Rgb24Frame.pixelAt_natCast hx' hy'] at h
  exact Option.some.inj h

theorem Rgb24Frame.InMemory.of_sides {m : Nat} (hm : m ≤ 2 ^ 30) (hf : f.WellFormed)
    (hw : f.width.toNat ≤ m) (hh : f.height.toNat ≤ m) : f.InMemory where
  wellFormed := hf
  allocated := by
    have hle : 3 * f.width.toNat * f.height.toNat ≤ 3 * 2 ^ 30 * 2 ^ 30 :=
      Nat.mul_le_mul (by omega) (by omega)
    rw [show f.pixels.length = 3 * f.width.toNat * f.height.toNat from hf]
    unfold isizeMax
    omega

theorem Rgb24Frame.InMemory.sized (hf : f.InMemory) : f.Sized f.width f.height := ⟨hf, rfl, rfl⟩

theorem Rgb24Frame.black_eq (hfits : 3 * width.toNat * height.toNat ≤ isizeMax) :
    (Rgb24Frame.black width height : Outcome ε _) =
      .ok ⟨width, height, zeros (3 * width.toNat * height.toNat)⟩ := by
  have hlimit : isizeMax < u64Bound := by decide
  have hwidth := width.toNat_lt
  rw [Rgb24Frame.black, u64Mul_of_lt (by unfold u64Bound; omega), ok_bind,
    u64Mul_of_lt (by omega), ok_bind, reserve, require_pos hfits, ok_bind, pure_eq]

theorem Rgb24Frame.sized_of_black (h : (Rgb24Frame.black width height : Outcome ε _) = .ok f) :
    f.Sized width height := by
  obtain ⟨row, hrow, h⟩ := bind_eq_ok.mp h
  obtain ⟨len, hlen, h⟩ := bind_eq_ok.mp h
  obtain ⟨_, hroom, h⟩ := bind_eq_ok.mp h
  obtain ⟨-, rfl⟩ := u64Mul_eq_ok.mp hrow
  obtain ⟨-, rfl⟩ := u64Mul_eq_ok.mp hlen
  cases h
  refine ⟨⟨length_zeros _, ?_⟩, rfl, rfl⟩
  rw [length_zeros]
  exact require_eq_ok.mp hroom

namespace Rgb24Frame.Sized

theorem length_eq (hf : f.Sized width height) :
    f.pixels.length = 3 * width.toNat * height.toNat := by
  rw [← hf.width_eq, ← hf.height_eq]
  exact hf.wellFormed

theorem size_lt (hf : f.Sized width height) : 3 * width.toNat * height.toNat < u64Bound := by
  rw [← hf.length_eq]
  exact lt_of_le_of_lt hf.allocated (by decide)

theorem pixelAt_of_mem (hf : f.Sized width height) {p : Int × Int}
    (hp : p ∈ rect 0 0 width.toNat height.toNat) :
    f.pixelAt p = some (f.pixel p.1.toNat p.2.toNat) := by
  rw [mem_rect, Int.zero_add, Int.zero_add] at hp
  rw [Rgb24Frame.pixelAt, if_pos (by rwa [hf.width_eq, hf.height_eq])]

theorem pixelAt_of_notMem (hf : f.Sized width height) {p : Int × Int}
    (hp : p ∉ rect 0 0 width.toNat height.toNat) : f.pixelAt p = none := by
  rw [mem_rect, Int.zero_add, Int.zero_add] at hp
  rw [Rgb24Frame.pixelAt, if_neg (by rwa [hf.width_eq, hf.height_eq])]

/-- Replacing the buffer by another of its length. -/
theorem withPixels (hf : f.Sized width height) {pixels : Bytes}
    (hlen : pixels.length = f.pixels.length) : Sized width height { f with pixels } where
  width_eq := hf.width_eq
  height_eq := hf.height_eq
  wellFormed := hlen.trans hf.wellFormed
  allocated := hlen.trans_le hf.allocated

/-- What a buffer changed at `start..start + 3 * m` says of the pixels: that
is `m` pixels of row `y` from `x` on. -/
theorem eqOn_pixelAt (hf : f.Sized width height) {pixels : Bytes} {x y m : Nat}
    (hlen : pixels.length = f.pixels.length) (hx : x + m ≤ width.toNat)
    (hkeep : ∀ j, ¬(3 * (y * width.toNat + x) ≤ j ∧ j < 3 * (y * width.toNat + x) + 3 * m) →
      pixels[j]? = f.pixels[j]?) :
    Set.EqOn (pixelAt { f with pixels }) f.pixelAt (rect x y m 1)ᶜ := by
  intro p hp
  have hf' := hf.withPixels hlen
  by_cases hin : p ∈ rect 0 0 width.toNat height.toNat
  · rw [hf'.pixelAt_of_mem hin, hf.pixelAt_of_mem hin]
    obtain ⟨x', y'⟩ := p
    rw [Set.mem_compl_iff, mem_rect] at hp
    rw [mem_rect] at hin
    obtain ⟨x', rfl⟩ := Int.eq_ofNat_of_zero_le hin.1.1
    obtain ⟨y', rfl⟩ := Int.eq_ofNat_of_zero_le hin.2.1
    simp only [Int.toNat_natCast, Int.zero_add, Nat.cast_lt] at hp hin ⊢
    refine congrArg some (take_drop_congr fun d hd => hkeep _ ?_)
    show ¬(_ ≤ 3 * (y' * f.width.toNat + x') + d ∧ 3 * (y' * f.width.toNat + x') + d < _)
    rw [hf.width_eq]
    -- a pixel of another row is before or behind the whole row
    rcases lt_trichotomy y' y with hlt | rfl | hgt
    · have hrow : (y' + 1) * width.toNat ≤ y * width.toNat := Nat.mul_le_mul_right _ hlt
      rw [Nat.succ_mul] at hrow
      omega
    · omega
    · have hrow : (y + 1) * width.toNat ≤ y' * width.toNat := Nat.mul_le_mul_right _ hgt
      rw [Nat.succ_mul] at hrow
      omega
  · rw [hf'.pixelAt_of_notMem hin, hf.pixelAt_of_notMem hin]

theorem offset_le {x y m : Nat} (hx : x + m ≤ width.toNat) (hy : y < height.toNat) :
    3 * (y * width.toNat + x) + 3 * m ≤ 3 * width.toNat * height.toNat := by
  have hrow : (y + 1) * width.toNat ≤ height.toNat * width.toNat := Nat.mul_le_mul_right _ hy
  have hcomm : 3 * width.toNat * height.toNat = 3 * (height.toNat * width.toNat) := by ring
  rw [Nat.succ_mul] at hrow
  omega

/-- Copying `m` pixels into a row. -/
theorem copyRow (hf : f.Sized width height) {x y m : Nat} {src : Bytes}
    (hx : x + m ≤ width.toNat) (hy : y < height.toNat) (hsrc : src.length = 3 * m) :
    ∃ pixels, (copyFromSlice f.pixels (3 * (y * width.toNat + x))
        (3 * (y * width.toNat + x) + 3 * m) src : Outcome ε Bytes) = .ok pixels ∧
      Sized width height { f with pixels } ∧
      Set.EqOn (pixelAt { f with pixels })
        (fun p => some ((src.drop (3 * (p.1 - x).toNat)).take 3)) (rect x y m 1) ∧
      Set.EqOn (pixelAt { f with pixels }) f.pixelAt (rect x y m 1)ᶜ := by
  have hroom := offset_le hx hy
  rw [← hf.length_eq, ← hsrc] at hroom
  obtain ⟨pixels, hcopy, hlen, hget⟩ := exists_copyFromSlice (ε := ε) hroom
  rw [hsrc] at hcopy hget
  have hf' := hf.withPixels hlen
  refine ⟨pixels, hcopy, hf', ?_, hf.eqOn_pixelAt hlen hx fun j hj => by rw [hget, if_neg hj]⟩
  intro p hp
  have hin : p ∈ rect 0 0 width.toNat height.toNat := by
    rw [mem_rect] at hp ⊢
    omega
  rw [hf'.pixelAt_of_mem hin]
  obtain ⟨x', y'⟩ := p
  rw [mem_rect] at hp hin
  obtain ⟨x', rfl⟩ := Int.eq_ofNat_of_zero_le hin.1.1
  obtain ⟨y', rfl⟩ := Int.eq_ofNat_of_zero_le hin.2.1
  simp only [Int.toNat_natCast] at hp ⊢
  obtain rfl : y' = y := by omega
  refine congrArg some (take_drop_congr fun d hd => ?_)
  show pixels[3 * (y' * f.width.toNat + x') + d]? = _
  rw [hf.width_eq, hget, if_pos (by omega)]
  congr 1
  omega

end Rgb24Frame.Sized

end Written

end ReplayRenderer
