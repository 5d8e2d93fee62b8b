import ReplayRenderer.Encode.Stills

/-!
The contact sheet: every `N`-th frame on a grid of tiles with a caption under
each. A caption may be wider than its tile and run into what is beside it, but
it stays in the rows between two rows of tiles, so that each tile keeps the
frame that was copied to it.
-/

namespace ReplayRenderer

open Lib Lib.Outcome

def captionColor : Rgb := ⟨255, 255, 255⟩
def captionH : Nat := 12
def maxTiles : Nat := 144
def maxCols : Nat := 12

section Source

variable {ε : Type}

/-- The `while` loop of `ceil_sqrt`; `c` does not get past `n`. -/
def ceilSqrtFrom (n : Nat) : Nat → Nat → Outcome ε Nat
  | 0, _ => .panic
  | fuel + 1, c => do
    let square ← u32 (c * c)
    if square < n then do
      let c ← u32 (c + 1)
      ceilSqrtFrom n fuel c
    else pure c

def ceilSqrt (n : Nat) : Outcome ε Nat := ceilSqrtFrom n (n + 1) 1

def drawTile (cols tw th cellH i : Nat) (entry : IndexedFrame) (sheet : Rgb24Frame) :
    Outcome ε Rgb24Frame := do
  let col := i % 2 ^ 32 % cols
  let row := i % 2 ^ 32 / cols
  let x0 ← tileOffset col tw
  let y0 ← tileOffset row cellH
  let sheet ← blit sheet entry.2 x0 y0
  let text := toString entry.1.toNat
  let captionW ← textWidth text 1
  let slack ← i64 (tw - captionW)
  let tx ← i64 (x0 + (max slack 0).tdiv 2)
  let below ← u32 (y0 + th)
  let ty ← i64 (below + 2)
  let (sheet, _) ← drawText sheet tx ty text captionColor 1
  pure sheet

/-- `frames.len().div_ceil(MAX_TILES).max(1)`. -/
def sheetStep (n : Nat) : Nat := max (n ⌈/⌉ maxTiles) 1

def contactSheet (frames : List IndexedFrame) : Outcome ε Rgb24Frame :=
  if frames.isEmpty then solid 4 4
  else do
    let selected := stepBy (sheetStep frames.length) frames
    let count := selected.length % 2 ^ 32
    let (tw, th) := tileDims selected
    let cols ← ceilSqrt count
    let cols := min (max cols 1) maxCols
    let rows := count ⌈/⌉ cols
    let cellH ← u32 (th + captionH)
    let sheetW ← tileOffset cols tw
    let sheetH ← tileOffset rows cellH
    let sheet ← solid (UInt32.ofNat sheetW) (UInt32.ofNat sheetH)
    forEach (drawTile cols tw th cellH) 0 selected sheet

end Source

/-! ### The grid -/

section Grid

variable {ε : Type}

theorem ceilSqrtFrom_eq {n k : Nat} (hk : k < 2 ^ 16) (hn : n ≤ k * k) {fuel c : Nat} (hc : c ≤ k)
    (hfuel : k < c + fuel) :
    ∃ c', (ceilSqrtFrom n fuel c : Outcome ε Nat) = .ok c' ∧ c ≤ c' ∧ c' ≤ k ∧ n ≤ c' * c' := by
  induction fuel generalizing c with
  | zero => exact absurd hfuel (by omega)
  | succ fuel ih =>
      have hsquare : c * c ≤ 65535 * 65535 := Nat.mul_le_mul (by omega) (by omega)
      rw [ceilSqrtFrom, u32_of_lt (by omega), ok_bind]
      by_cases hstop : c * c < n
      · have hck : c < k := by
          rcases hc.lt_or_eq with hlt | rfl
          · exact hlt
          · omega
        obtain ⟨c', hloop, hle, hle', hn'⟩ := ih hck (by omega)
        exact ⟨c', by rw [if_pos hstop, u32_of_lt (by omega), ok_bind, hloop], by omega, hle', hn'⟩
      · exact ⟨c, if_neg hstop, le_refl c, hc, by omega⟩

/-- Up to 144 tiles make at most twelve columns. -/
theorem ceilSqrt_eq {n : Nat} (hn : n ≤ maxTiles) (hpos : 1 ≤ n) :
    ∃ c, (ceilSqrt n : Outcome ε Nat) = .ok c ∧ 1 ≤ c ∧ c ≤ maxCols ∧ n ≤ c * c := by
  unfold maxTiles maxCols at *
  rcases Nat.lt_or_ge n 12 with hlt | hge
  · obtain ⟨c, hloop, hone, hle, hsquare⟩ := ceilSqrtFrom_eq (ε := ε) (n := n) (k := n) (c := 1)
      (by omega) (Nat.le_mul_self n) hpos (show n < 1 + (n + 1) by omega)
    exact ⟨c, hloop, hone, by omega, hsquare⟩
  · exact ceilSqrtFrom_eq (ε := ε) (n := n) (k := 12) (c := 1) (by decide) (by omega) (by decide)
      (by omega)

theorem sheetStep_pos (n : Nat) : 1 ≤ sheetStep n := Nat.le_max_right _ _

/-- The step is the smallest that leaves at most 144 frames. -/
theorem sheetStep_le_iff {frames : List IndexedFrame} {m : Nat} (hm : 1 ≤ m) :
    sheetStep frames.length ≤ m ↔ (stepBy m frames).length ≤ maxTiles := by
  rw [sheetStep, Nat.max_le, ceilDiv_le_iff_le_mul (by decide), length_stepBy_le_iff hm]
  exact and_iff_left hm

end Grid

structure SheetLayout where
  step : Nat
  cols : Nat
  rows : Nat
  tw : Nat
  th : Nat
  deriving DecidableEq, Repr

namespace SheetLayout

variable (g : SheetLayout)

def cellH : Nat := g.th + captionH

def tileX (i : Nat) : Nat := gutter + i % g.cols * (g.tw + gutter)

def tileY (i : Nat) : Nat := gutter + i / g.cols * (g.cellH + gutter)

def tile (i : Nat) : Set (Int × Int) := rect (g.tileX i) (g.tileY i) g.tw g.th

/-- Where the characters of a caption can be: beside and below the tile. -/
def captionRows (i : Nat) : Set (Int × Int) :=
  {p | (g.tileY i : Int) + g.th + 2 ≤ p.2 ∧ p.2 < g.tileY i + g.th + 10}

def sheetW : Nat := gutter + g.cols * (g.tw + gutter)

def sheetH : Nat := gutter + g.rows * (g.cellH + gutter)

structure Fits (count : Nat) : Prop where
  cols_pos : 1 ≤ g.cols
  cols_le : g.cols ≤ maxCols
  rows_le : g.rows ≤ maxCols
  room : count ≤ g.cols * g.rows
  tw_le : g.tw ≤ 65535
  th_le : g.th ≤ 65535

variable {g} {count : Nat} (hg : g.Fits count)

theorem tileY_lt {i j : Nat} (hrow : i / g.cols < j / g.cols) :
    g.tileY i + g.th + captionH + gutter ≤ g.tileY j := by
  have hband := tileOffset_lt hrow g.cellH
  unfold tileY cellH at *
  omega

theorem tileX_lt {i j : Nat} (hcol : i % g.cols < j % g.cols) :
    g.tileX i + g.tw + gutter ≤ g.tileX j := by
  have hband := tileOffset_lt hcol g.tw
  unfold tileX at *
  omega

theorem tile_disjoint {i j : Nat} (hij : i ≠ j) : Disjoint (g.tile i) (g.tile j) := by
  rw [Set.disjoint_left]
  intro p hi hj
  rw [tile, mem_rect] at hi hj
  rcases lt_trichotomy (i / g.cols) (j / g.cols) with hlt | hrow | hgt
  · have hband := tileY_lt (g := g) hlt
    omega
  · rcases lt_trichotomy (i % g.cols) (j % g.cols) with hlt | hcol | hgt
    · have hband := tileX_lt (g := g) hlt
      omega
    · exact hij (by rw [← Nat.div_add_mod i g.cols, ← Nat.div_add_mod j g.cols, hrow, hcol])
    · have hband := tileX_lt (g := g) hgt
      omega
  · have hband := tileY_lt (g := g) hgt
    omega

/-- A caption is between the tiles of its row and those of the next. -/
theorem caption_disjoint (i j : Nat) : Disjoint (g.captionRows i) (g.tile j) := by
  rw [Set.disjoint_left]
  intro p hi hj
  rw [tile, mem_rect] at hj
  obtain ⟨hi, hi'⟩ := hi
  rcases lt_trichotomy (i / g.cols) (j / g.cols) with hlt | hrow | hgt
  · have hband := tileY_lt (g := g) hlt
    unfold captionH at hband
    omega
  · have hsame : g.tileY i = g.tileY j := by rw [tileY, tileY, hrow]
    omega
  · have hband := tileY_lt (g := g) hgt
    omega

include hg

theorem Fits.sheetW_le : g.sheetW ≤ 786446 := by
  have hcols := hg.cols_le
  have htw := hg.tw_le
  have hle : g.cols * (g.tw + gutter) ≤ 12 * 65537 := Nat.mul_le_mul hcols (by unfold gutter; omega)
  unfold sheetW gutter at *
  omega

theorem Fits.sheetH_le : g.sheetH ≤ 786590 := by
  have hrows := hg.rows_le
  have hth := hg.th_le
  have hle : g.rows * (g.cellH + gutter) ≤ 12 * 65549 :=
    Nat.mul_le_mul hrows (by unfold cellH captionH gutter; omega)
  unfold sheetH gutter at *
  omega

theorem Fits.tile_inside {i : Nat} (hi : i < count) :
    g.tileX i + g.tw + gutter ≤ g.sheetW ∧ g.tileY i + g.cellH + gutter ≤ g.sheetH := by
  have hcol : i % g.cols < g.cols := Nat.mod_lt _ hg.cols_pos
  have hrow : i / g.cols < g.rows := by
    rw [Nat.div_lt_iff_lt_mul hg.cols_pos, Nat.mul_comm]
    exact hi.trans_le hg.room
  exact ⟨tileOffset_lt hcol g.tw, tileOffset_lt hrow g.cellH⟩

end SheetLayout

/-! ### One tile -/

section Tile

variable {ε : Type} {g : SheetLayout} {count : Nat} (hg : g.Fits count) {width height : UInt32}
  (hwidth : width.toNat = g.sheetW) (hheight : height.toNat = g.sheetH) {entry : IndexedFrame}
  (hentry : entry.2.InMemory) (hw : entry.2.width.toNat ≤ g.tw) (hh : entry.2.height.toNat ≤ g.th)

/-- The frame of an entry, moved to tile `i`. -/
def SheetLayout.frameAt (g : SheetLayout) (i : Nat) (entry : IndexedFrame) : Set (Int × Int) :=
  rect (g.tileX i) (g.tileY i) entry.2.width.toNat entry.2.height.toNat

include hw hh in
theorem frameAt_subset (i : Nat) : g.frameAt i entry ⊆ g.tile i :=
  rect_subset (le_refl _) (le_refl _) (by omega) (by omega)

include hg hwidth hheight hentry hw hh in
/-- The frame is copied to its tile, and nothing but its caption's rows
changes besides. -/
theorem drawTile_spec {i : Nat} (hi : i < count) (hsmall : i < 2 ^ 32) {sheet : Rgb24Frame}
    (hsheet : sheet.Sized width height) :
    ∃ sheet', (drawTile g.cols g.tw g.th g.cellH i entry sheet : Outcome ε _) = .ok sheet' ∧
      sheet'.Sized width height ∧
      (∀ p ∈ g.frameAt i entry,
        sheet'.pixelAt p = entry.2.pixelAt (p.1 - g.tileX i, p.2 - g.tileY i)) ∧
      Set.EqOn sheet'.pixelAt sheet.pixelAt (g.frameAt i entry ∪ g.captionRows i)ᶜ := by
  obtain ⟨hinX, hinY⟩ := hg.tile_inside hi
  have hsheetW := hg.sheetW_le
  have hsheetH := hg.sheetH_le
  have hlen : (toString entry.1.toNat).length ≤ 20 := length_toString_u64 entry.1
  have hx0 : (tileOffset (i % g.cols) g.tw : Outcome ε Nat) = .ok (g.tileX i) :=
    tileOffset_eq (by unfold SheetLayout.tileX at *; omega) (by unfold gutter at *; omega)
  have hy0 : (tileOffset (i / g.cols) g.cellH : Outcome ε Nat) = .ok (g.tileY i) :=
    tileOffset_eq (by unfold SheetLayout.tileY at *; omega) (by unfold gutter at *; omega)
  have hcell : g.cellH = g.th + 12 := rfl
  obtain ⟨sheet₁, hblit, hsheet₁, hfill, hkeep⟩ := blit_copies (ε := ε) hentry
    (show g.tileX i + entry.2.width.toNat ≤ width.toNat by omega)
    (show g.tileY i + entry.2.height.toNat ≤ height.toNat by omega) sheet hsheet
  -- the caption is centred under the tile, or begins with it when it is wider
  have hcaptionW : (textWidth (toString entry.1.toNat) 1 : Outcome ε Int) =
      .ok (8 * 1 * (toString entry.1.toNat).length) := textWidth_eq (by omega) (by omega)
  obtain ⟨tx, htx⟩ : ∃ tx : Int, tx = g.tileX i +
    (max ((g.tw : Int) - 8 * 1 * (toString entry.1.toNat).length) 0).tdiv 2 := ⟨_, rfl⟩
  have htx0 : 0 ≤ tx ∧ tx ≤ 2 ^ 32 := by
    rw [Int.tdiv_eq_ediv_of_nonneg (le_max_right _ _)] at htx
    omega
  obtain ⟨sheet₂, hcaption, hsheet₂, hrest⟩ := drawText_marks (ε := ε) (x := tx)
    (y := g.tileY i + g.th + 2) (s := 1) captionColor (toString entry.1.toNat) (by omega)
    (by omega) (by omega) (by omega) (by omega) sheet₁ hsheet₁
  have hrows : rect tx (g.tileY i + g.th + 2) (8 * 1 * (toString entry.1.toNat).length) (8 * 1) ⊆
      g.captionRows i := by
    intro p hp
    rw [mem_rect] at hp
    exact ⟨by omega, by omega⟩
  replace hrest := hrest.mono (Set.compl_subset_compl.mpr hrows)
  refine ⟨sheet₂, ?_, hsheet₂, ?_, ?_⟩
  · simp only [drawTile, Nat.mod_eq_of_lt hsmall, hx0, hy0, ok_bind]
    rw [show blit sheet entry.2 (g.tileX i) (g.tileY i) = _ from hblit, ok_bind, hcaptionW, ok_bind,
      i64_of_bounds (by omega) (by omega), ok_bind, i64_of_bounds (by omega) (by omega), ok_bind,
      u32_of_lt (by omega), ok_bind, i64_of_bounds (by omega) (by omega), ok_bind, ← htx]
    exact hcaption
  · intro p hp
    have hout := Set.disjoint_left.mp (SheetLayout.caption_disjoint (g := g) i i).symm
      (frameAt_subset hw hh i hp)
    rw [hrest hout, hfill p hp]
  · refine (hrest.mono ?_).trans (hkeep.mono ?_)
    · exact Set.compl_subset_compl.mpr Set.subset_union_right
    · exact Set.compl_subset_compl.mpr Set.subset_union_left

end Tile

/-! ### The whole sheet -/

/-- What a contact sheet of some frames is: every `step`-th of them, for the
smallest step that leaves at most 144, on a grid of at most 12×12 tiles that
are in the sheet and apart, each with its frame unchanged. -/
structure SheetLayout.Shows (g : SheetLayout) (frames : List IndexedFrame) (sheet : Rgb24Frame) :
    Prop where
  step_pos : 1 ≤ g.step
  count_le : (stepBy g.step frames).length ≤ 144
  step_least : ∀ m, 1 ≤ m → (stepBy m frames).length ≤ 144 → g.step ≤ m
  selected : ∀ i, (stepBy g.step frames)[i]? = frames[i * g.step]?
  grid : g.cols ≤ 12 ∧ g.rows ≤ 12 ∧ (stepBy g.step frames).length ≤ g.cols * g.rows
  inside : ∀ i < (stepBy g.step frames).length,
    g.tileX i + g.tw ≤ sheet.width.toNat ∧ g.tileY i + g.th ≤ sheet.height.toNat
  disjoint : ∀ i j, i ≠ j → Disjoint (g.tile i) (g.tile j)
  shown : ∀ i entry, (stepBy g.step frames)[i]? = some entry →
    entry.2.width.toNat ≤ g.tw ∧ entry.2.height.toNat ≤ g.th ∧
    ∀ x < entry.2.width.toNat, ∀ y < entry.2.height.toNat,
      sheet.pixel (g.tileX i + x) (g.tileY i + y) = entry.2.pixel x y

section Sheet

variable {ε : Type} {g : SheetLayout} {width height : UInt32} {selected : List IndexedFrame}

theorem drawTiles_spec (hg : g.Fits selected.length) (hcount : selected.length < 2 ^ 32)
    (hwidth : width.toNat = g.sheetW) (hheight : height.toNat = g.sheetH)
    (hselected : ∀ p ∈ selected, p.2.InMemory ∧ p.2.width.toNat ≤ g.tw ∧ p.2.height.toNat ≤ g.th)
    {sheet : Rgb24Frame} (hsheet : sheet.Sized width height) :
    ∃ sheet', (forEach (drawTile g.cols g.tw g.th g.cellH) 0 selected sheet : Outcome ε _) =
        .ok sheet' ∧ sheet'.Sized width height ∧
      ∀ i entry, selected[i]? = some entry → Set.EqOn sheet'.pixelAt
        (fun p => entry.2.pixelAt (p.1 - g.tileX i, p.2 - g.tileY i)) (g.frameAt i entry) := by
  refine forEach_fills ?_ hsheet
  intro i entry hi s hs
  have hlt : i < selected.length := (List.getElem?_eq_some_iff.mp hi).1
  obtain ⟨hmem, hw, hh⟩ := hselected entry (List.mem_of_getElem? hi)
  obtain ⟨s', hdraw, hs', hfill, hkeep⟩ := drawTile_spec (ε := ε) hg hwidth hheight hmem hw hh
    hlt (hlt.trans hcount) hs
  refine ⟨s', hdraw, hs', hfill, fun j hj e he p hp => hkeep ?_⟩
  obtain ⟨-, hw', hh'⟩ := hselected e (List.mem_of_getElem? he)
  have htile := frameAt_subset hw' hh' j hp
  rintro (hframe | hcaption)
  · exact Set.disjoint_left.mp (SheetLayout.tile_disjoint hj.ne) htile
      (frameAt_subset hw hh i hframe)
  · exact Set.disjoint_left.mp (SheetLayout.caption_disjoint i j) hcaption htile

theorem exists_solid {count : Nat} (hg : g.Fits count) :
    ∃ sheet, (solid (UInt32.ofNat g.sheetW) (UInt32.ofNat g.sheetH) : Outcome ε _) = .ok sheet ∧
      sheet.Sized (UInt32.ofNat g.sheetW) (UInt32.ofNat g.sheetH) ∧
      (UInt32.ofNat g.sheetW).toNat = g.sheetW ∧ (UInt32.ofNat g.sheetH).toNat = g.sheetH := by
  have hw := hg.sheetW_le
  have hh := hg.sheetH_le
  have hwidth : (UInt32.ofNat g.sheetW).toNat = g.sheetW :=
    UInt32.toNat_ofNat_of_lt' (by rw [UInt32.size]; omega)
  have hheight : (UInt32.ofNat g.sheetH).toNat = g.sheetH :=
    UInt32.toNat_ofNat_of_lt' (by rw [UInt32.size]; omega)
  have hbytes : 3 * g.sheetW * g.sheetH ≤ 3 * 786446 * 786590 :=
    Nat.mul_le_mul (by omega) hh
  have hroom : 3 * (UInt32.ofNat g.sheetW).toNat * (UInt32.ofNat g.sheetH).toNat ≤ isizeMax := by
    rw [hwidth, hheight]
    unfold isizeMax
    omega
  obtain ⟨sheet, hsolid, hsheet, -⟩ := solid_spec (ε := ε) (Rgb24Frame.black_eq hroom)
  exact ⟨sheet, hsolid, hsheet, hwidth, hheight⟩

def sheetLayout (step : Nat) (selected : List IndexedFrame) (cols : Nat) : SheetLayout where
  step := step
  cols := cols
  rows := selected.length ⌈/⌉ cols
  tw := (tileDims selected).1
  th := (tileDims selected).2

/-- As many rows as columns are enough. -/
theorem sheetLayout_fits {step cols : Nat}
    (hsides : ∀ p ∈ selected, p.2.width.toNat ≤ 65535 ∧ p.2.height.toNat ≤ 65535)
    (hpos : 1 ≤ cols) (hle : cols ≤ maxCols) (hsquare : selected.length ≤ cols * cols) :
    (sheetLayout step selected cols).Fits selected.length := by
  obtain ⟨htw, hth⟩ := tileDims_le (m := 65535) (by decide) hsides
  refine ⟨hpos, hle, ?_, ?_, htw, hth⟩
  · show selected.length ⌈/⌉ cols ≤ maxCols
    rw [ceilDiv_le_iff_le_mul hpos]
    exact hsquare.trans (Nat.mul_le_mul_left _ hle)
  · show selected.length ≤ cols * (selected.length ⌈/⌉ cols)
    rw [← ceilDiv_le_iff_le_mul hpos]

theorem contactSheet_eq {frames : List IndexedFrame} (hne : frames ≠ []) {cols : Nat}
    (hselected : stepBy (sheetStep frames.length) frames = selected)
    (hcount : selected.length ≤ maxTiles)
    (hsqrt : (ceilSqrt selected.length : Outcome ε Nat) = .ok cols) (hpos : 1 ≤ cols)
    (hle : cols ≤ maxCols) (hg : g = sheetLayout (sheetStep frames.length) selected cols)
    (hfits : g.Fits selected.length) :
    (contactSheet frames : Outcome ε Rgb24Frame) =
      solid (UInt32.ofNat g.sheetW) (UInt32.ofNat g.sheetH) >>=
        forEach (drawTile g.cols g.tw g.th g.cellH) 0 selected := by
  have hw := hfits.sheetW_le
  have hh := hfits.sheetH_le
  have htw := hfits.tw_le
  have hth := hfits.th_le
  have hsmall : selected.length % 2 ^ 32 = selected.length :=
    Nat.mod_eq_of_lt (hcount.trans_lt (by decide))
  have hclamp : min (max cols 1) maxCols = cols := by omega
  have hcellH : (u32 (g.th + captionH) : Outcome ε Nat) = .ok g.cellH :=
    u32_of_lt (by unfold captionH; omega)
  have hcell : g.cellH = g.th + 12 := rfl
  have hsheetW : (tileOffset g.cols g.tw : Outcome ε Nat) = .ok g.sheetW :=
    tileOffset_eq (by unfold SheetLayout.sheetW at hw; omega) (by unfold gutter; omega)
  have hsheetH : (tileOffset g.rows g.cellH : Outcome ε Nat) = .ok g.sheetH :=
    tileOffset_eq (by unfold SheetLayout.sheetH at hh; omega) (by unfold gutter; omega)
  subst hg
  rw [contactSheet, if_neg (mt List.isEmpty_iff.mp hne)]
  simp only [hselected, hsmall, hsqrt, ok_bind, hclamp]
  show (u32 ((sheetLayout (sheetStep frames.length) selected cols).th + captionH) >>= _) = _
  rw [hcellH, ok_bind]
  show (tileOffset (sheetLayout (sheetStep frames.length) selected cols).cols
    (sheetLayout (sheetStep frames.length) selected cols).tw >>= _) = _
  rw [hsheetW, ok_bind]
  show (tileOffset (sheetLayout (sheetStep frames.length) selected cols).rows
    (sheetLayout (sheetStep frames.length) selected cols).cellH >>= _) = _
  rw [hsheetH, ok_bind]
  rfl

theorem selected_length {frames : List IndexedFrame} (hne : frames ≠ [])
    (hselected : stepBy (sheetStep frames.length) frames = selected) :
    0 < selected.length ∧ selected.length ≤ maxTiles := by
  have hstep := sheetStep_pos frames.length
  have hfirst : selected[0]? = frames[0]? := by
    rw [← hselected, getElem?_stepBy hstep, Nat.zero_mul]
  have hhead := List.getElem?_eq_getElem (List.length_pos_iff.mpr hne)
  rw [← hfirst] at hhead
  refine ⟨(List.getElem?_eq_some_iff.mp hhead).1, ?_⟩
  rw [← hselected]
  exact (sheetStep_le_iff hstep).mp (le_refl _)

theorem shows_of_drawn {frames : List IndexedFrame} {sheet : Rgb24Frame}
    (hstep : g.step = sheetStep frames.length)
    (hselected : stepBy (sheetStep frames.length) frames = selected)
    (hfits : g.Fits selected.length) (hwidth : width.toNat = g.sheetW)
    (hheight : height.toNat = g.sheetH)
    (htile : ∀ p ∈ selected, p.2.width.toNat ≤ g.tw ∧ p.2.height.toNat ≤ g.th)
    (hsheet : sheet.Sized width height)
    (hshown : ∀ i entry, selected[i]? = some entry → Set.EqOn sheet.pixelAt
      (fun p => entry.2.pixelAt (p.1 - g.tileX i, p.2 - g.tileY i)) (g.frameAt i entry)) :
    g.Shows frames sheet := by
  have hpos := sheetStep_pos frames.length
  have hinside : ∀ i < selected.length,
      g.tileX i + g.tw ≤ sheet.width.toNat ∧ g.tileY i + g.th ≤ sheet.height.toNat := by
    intro i hi
    obtain ⟨hinX, hinY⟩ := hfits.tile_inside hi
    rw [hsheet.width_eq, hsheet.height_eq, hwidth, hheight]
    unfold SheetLayout.cellH at hinY
    omega
  rw [← hstep] at hselected hpos
  exact {
    step_pos := hpos
    count_le := (sheetStep_le_iff hpos).mp hstep.ge
    step_least := fun m hm hle => hstep.trans_le ((sheetStep_le_iff hm).mpr hle)
    selected := getElem?_stepBy hpos frames
    grid := by
      rw [hselected]
      exact ⟨hfits.cols_le, hfits.rows_le, hfits.room⟩
    inside := hselected ▸ hinside
    disjoint := fun i j => SheetLayout.tile_disjoint
    shown := by
      rw [hselected]
      intro i entry hi
      obtain ⟨hw, hh⟩ := htile entry (List.mem_of_getElem? hi)
      obtain ⟨hinX, hinY⟩ := hinside i (List.getElem?_eq_some_iff.mp hi).1
      exact ⟨hw, hh, fun x hx y hy =>
        pixel_of_copied (hshown i entry hi) (by omega) (by omega) hx hy⟩ }

end Sheet

/-- The contact sheet shows the selected frames unmodified. -/
theorem contactSheet_shows {frames : List IndexedFrame} (hne : frames ≠ [])
    (hframes : ∀ p ∈ frames, p.2.WellFormed ∧ p.2.width.toNat ≤ 65535 ∧
      p.2.height.toNat ≤ 65535) :
    ∃ sheet g, (contactSheet frames : Outcome Empty Rgb24Frame) = .ok sheet ∧
      SheetLayout.Shows g frames sheet := by
  obtain ⟨selected, hselected⟩ : ∃ selected, stepBy (sheetStep frames.length) frames = selected :=
    ⟨_, rfl⟩
  have hmem : ∀ p ∈ selected, p ∈ frames := fun p hp =>
    mem_of_mem_stepBy (sheetStep_pos _) (hselected.symm ▸ hp)
  obtain ⟨hpos, hcount⟩ := selected_length hne hselected
  obtain ⟨cols, hsqrt, hcols, hcols', hsquare⟩ := ceilSqrt_eq (ε := Empty) hcount hpos
  obtain ⟨g, hlayout⟩ : ∃ g, g = sheetLayout (sheetStep frames.length) selected cols := ⟨_, rfl⟩
  have hfits : g.Fits selected.length := by
    rw [hlayout]
    exact sheetLayout_fits (fun p hp => (hframes p (hmem p hp)).2) hcols hcols' hsquare
  have hselectedFits : ∀ p ∈ selected,
      p.2.InMemory ∧ p.2.width.toNat ≤ g.tw ∧ p.2.height.toNat ≤ g.th := by
    intro p hp
    obtain ⟨hf, hw, hh⟩ := hframes p (hmem p hp)
    rw [hlayout]
    exact ⟨.of_sides (by decide) hf hw hh, le_tileDims hp⟩
  obtain ⟨blank, hsolid, hblank, hwidth, hheight⟩ := exists_solid (ε := Empty) hfits
  obtain ⟨sheet, hdraw, hsheet, hshown⟩ := drawTiles_spec (ε := Empty) hfits
    (hcount.trans_lt (by decide)) hwidth hheight hselectedFits hblank
  refine ⟨sheet, g, ?_, ?_⟩
  · rw [contactSheet_eq hne hselected hcount hsqrt hcols hcols' hlayout hfits, hsolid, ok_bind,
      hdraw]
  · have hstep : g.step = sheetStep frames.length := by rw [hlayout, sheetLayout]
    exact shows_of_drawn hstep hselected hfits hwidth hheight
      (fun p hp => (hselectedFits p hp).2) hsheet hshown

def mixedFrames : List IndexedFrame := [(5, ⟨1, 1, [9, 8, 7]⟩), (123456789, ⟨2, 1, zeros 6⟩)]

theorem contactSheet_shows_mixedFrames :
    ∃ sheet g, (contactSheet mixedFrames : Outcome Empty Rgb24Frame) = .ok sheet ∧
      SheetLayout.Shows g mixedFrames sheet := by
  have hne : mixedFrames ≠ [] := List.cons_ne_nil _ _
  have hframes : ∀ p ∈ mixedFrames, p.2.WellFormed ∧ p.2.width.toNat ≤ 65535 ∧
      p.2.height.toNat ≤ 65535 := by
    intro p hp
    rcases List.mem_cons.mp hp with rfl | hp
    · exact ⟨rfl, by decide, by decide⟩
    · obtain rfl := List.mem_singleton.mp hp
      exact ⟨rfl, by decide, by decide⟩
  exact contactSheet_shows hne hframes

end ReplayRenderer
