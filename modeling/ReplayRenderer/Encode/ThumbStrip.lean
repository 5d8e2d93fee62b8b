import ReplayRenderer.Encode.Stills

/-!
The thumbnail strip: up to sixteen frames in one row, at positions spread
evenly from the first frame to the last. With no more positions than frames
their quotients differ, so that what removes repeated positions finds none.
-/

namespace ReplayRenderer

open Lib Lib.Outcome

/-- Frame count of the strip. -/
def stripK : Nat := 16

section Source

variable {ε : Type}

/-- `Vec::dedup`: of equal neighbours the first is kept. -/
def dedup (indices : List Nat) : List Nat := indices.destutter (· ≠ ·)

def thumbPositions (len : Nat) : Outcome ε (List Nat) :=
  let k := min stripK len
  if k = 1 then pure [0]
  else forRange (fun i indices => do
    let last ← u64Sub len 1
    let product ← u64Mul i last
    let d ← u64Sub k 1
    pure (indices ++ [product / d])) [] k

/-- `indices.iter().map(|&i| &frames[i]).collect()`. -/
def gather (frames : List IndexedFrame) : List Nat → Outcome ε (List IndexedFrame)
  | [] => .ok []
  | i :: is => do
    let p ← Outcome.expect frames[i]?
    let ps ← gather frames is
    pure (p :: ps)

def thumbSelected (frames : List IndexedFrame) : Outcome ε (List IndexedFrame) := do
  let indices ← thumbPositions frames.length
  gather frames (dedup indices)

/-- The strip before its frames, in the size they ask for. -/
def thumbBlank (selected : List IndexedFrame) : Outcome ε Rgb24Frame := do
  let count := selected.length % 2 ^ 32
  let (tw, th) := tileDims selected
  let stripW ← tileOffset count tw
  let stripH ← u32 (gutter + th)
  let stripH ← u32 (stripH + gutter)
  solid (UInt32.ofNat stripW) (UInt32.ofNat stripH)

def drawThumb (tw i : Nat) (entry : IndexedFrame) (strip : Rgb24Frame) :
    Outcome ε Rgb24Frame := do
  let x0 ← tileOffset (i % 2 ^ 32) tw
  blit strip entry.2 x0 gutter

def thumbStrip (frames : List IndexedFrame) : Outcome ε Rgb24Frame :=
  if frames.isEmpty then solid 4 4
  else do
    let selected ← thumbSelected frames
    let strip ← thumbBlank selected
    forEach (drawThumb (tileDims selected).1) 0 selected strip

end Source

/-! ### The positions -/

def evenPositions (n : Nat) : List Nat :=
  (List.range (min stripK n)).map (spread (n - 1) (min stripK n - 1))

section Positions

variable {ε : Type} {n : Nat}

theorem length_evenPositions : (evenPositions n).length = min 16 n := by
  rw [evenPositions, List.length_map, List.length_range, stripK]

theorem getElem?_evenPositions {i : Nat} (hi : i < min 16 n) :
    (evenPositions n)[i]? = some (spread (n - 1) (min 16 n - 1) i) := by
  rw [evenPositions, List.getElem?_map, stripK, List.getElem?_range hi, Option.map_some]

theorem thumbPositions_eq (hn : 1 ≤ n) (hfits : n * 16 < 2 ^ 64) :
    (thumbPositions n : Outcome ε (List Nat)) = .ok (evenPositions n) := by
  rw [thumbPositions, evenPositions]
  by_cases hone : min stripK n = 1
  · rw [if_pos hone, hone, pure_eq, List.range_one, List.map_singleton, spread_zero]
  · rw [if_neg hone]
    refine forRange_eq _ (fun i => (List.range i).map (spread (n - 1) (min stripK n - 1))) ?_
    intro i hi
    have hproduct : i * (n - 1) ≤ 16 * n :=
      Nat.mul_le_mul (by unfold stripK at hi; omega) (Nat.sub_le _ _)
    rw [u64Sub_of_le hn, ok_bind, u64Mul_of_lt (by unfold u64Bound; omega), ok_bind,
      u64Sub_of_le (by unfold stripK; omega), ok_bind, pure_eq, List.range_succ, List.map_append,
      List.map_singleton]
    rfl

/-- Sixteen positions or fewer, among no fewer frames, are all different. -/
theorem evenPositions_sorted : (evenPositions n).Pairwise (· < ·) := by
  rw [evenPositions, List.pairwise_map]
  refine List.pairwise_lt_range.imp_of_mem fun {i j} hi hj hij => ?_
  rw [List.mem_range] at hj
  exact spread_strictMono (by unfold stripK at *; omega) (by unfold stripK; omega) hij

theorem dedup_evenPositions : dedup (evenPositions n) = evenPositions n :=
  (List.destutter_eq_self_iff _ _).mpr
    (evenPositions_sorted.imp fun h => Nat.ne_of_lt h).isChain

end Positions

/-! ### The selection -/

section Selection

variable {ε : Type} {frames : List IndexedFrame}

theorem gather_eq {indices : List Nat} (hall : ∀ i ∈ indices, i < frames.length) :
    ∃ selected, (gather frames indices : Outcome ε (List IndexedFrame)) = .ok selected ∧
      selected.length = indices.length ∧
      ∀ j : Nat, selected[j]? = indices[j]?.bind fun i => frames[i]? := by
  induction indices with
  | nil => exact ⟨[], rfl, rfl, fun j => rfl⟩
  | cons i indices ih =>
      obtain ⟨hi, hrest⟩ := List.forall_mem_cons.mp hall
      obtain ⟨selected, hgather, hlen, hget⟩ := ih hrest
      have hframe := List.getElem?_eq_getElem hi
      refine ⟨frames[i] :: selected, ?_, ?_, fun j => ?_⟩
      · rw [gather, hframe, expect_some, ok_bind, hgather, ok_bind, pure_eq]
      · rw [List.length_cons, List.length_cons, hlen]
      · cases j with
        | zero => rw [List.getElem?_cons_zero, List.getElem?_cons_zero, Option.bind_some, hframe]
        | succ j => rw [List.getElem?_cons_succ, List.getElem?_cons_succ, hget]

theorem evenPositions_lt {n i : Nat} (hi : i ∈ evenPositions n) : i < n := by
  obtain ⟨j, hj, rfl⟩ := List.mem_map.mp hi
  rw [List.mem_range] at hj
  have hle : spread (n - 1) (min stripK n - 1) j ≤ n - 1 := spread_le (by omega)
  omega

theorem thumbSelected_eq (hne : frames ≠ []) (hfits : frames.length * 16 < 2 ^ 64) :
    ∃ selected, (thumbSelected frames : Outcome ε (List IndexedFrame)) = .ok selected ∧
      selected.length = min 16 frames.length ∧
      ∀ j : Nat, selected[j]? = (evenPositions frames.length)[j]?.bind fun i => frames[i]? := by
  obtain ⟨selected, hgather, hlen, hget⟩ :=
    gather_eq (ε := ε) fun i (hi : i ∈ evenPositions frames.length) => evenPositions_lt hi
  refine ⟨selected, ?_, hlen.trans length_evenPositions, hget⟩
  rw [thumbSelected, thumbPositions_eq (List.length_pos_iff.mpr hne) hfits, ok_bind,
    dedup_evenPositions, hgather]

end Selection

/-! ### The strip -/

section Strip

variable {ε : Type} {selected : List IndexedFrame}

def thumbX (selected : List IndexedFrame) (i : Nat) : Nat :=
  gutter + i * ((tileDims selected).1 + gutter)

def thumbAt (selected : List IndexedFrame) (i : Nat) (entry : IndexedFrame) : Set (Int × Int) :=
  rect (thumbX selected i) gutter entry.2.width.toNat entry.2.height.toNat

def thumbH (selected : List IndexedFrame) : Nat := gutter + (tileDims selected).2 + gutter

theorem thumbBlank_sized (hcount : selected.length < 2 ^ 32) {blank : Rgb24Frame}
    (hblank : (thumbBlank selected : Outcome ε Rgb24Frame) = .ok blank) :
    ∃ width height : UInt32, blank.Sized width height ∧
      width.toNat = thumbX selected selected.length ∧ height.toNat = thumbH selected ∧
      (tileDims selected).1 + gutter < 2 ^ 32 := by
  obtain ⟨stripW, hstripW, hblank⟩ := bind_eq_ok.mp hblank
  obtain ⟨below, hbelow, hblank⟩ := bind_eq_ok.mp hblank
  obtain ⟨stripH, hstripH, hblank⟩ := bind_eq_ok.mp hblank
  rw [Nat.mod_eq_of_lt hcount] at hstripW
  obtain ⟨⟨hpitch, hfits⟩, rfl⟩ := tileOffset_eq_ok.mp hstripW
  obtain ⟨-, rfl⟩ := u32_eq_ok.mp hbelow
  obtain ⟨hlt, rfl⟩ := u32_eq_ok.mp hstripH
  exact ⟨_, _, sized_of_solid hblank, UInt32.toNat_ofNat_of_lt' hfits,
    UInt32.toNat_ofNat_of_lt' hlt, hpitch⟩

theorem thumb_inside {i : Nat} {entry : IndexedFrame} (hi : selected[i]? = some entry) :
    thumbX selected i + entry.2.width.toNat + gutter ≤ thumbX selected selected.length ∧
      gutter + entry.2.height.toNat + gutter ≤ thumbH selected := by
  obtain ⟨hw, hh⟩ := le_tileDims (List.mem_of_getElem? hi)
  have hband := tileOffset_lt (List.getElem?_eq_some_iff.mp hi).1 (tileDims selected).1
  unfold thumbX thumbH
  omega

theorem drawThumb_copies (hcount : selected.length < 2 ^ 32) {width height : UInt32}
    (hwidth : width.toNat = thumbX selected selected.length)
    (hheight : height.toNat = thumbH selected) (hpitch : (tileDims selected).1 + gutter < 2 ^ 32)
    {i : Nat} {entry : IndexedFrame} (hi : selected[i]? = some entry) (hentry : entry.2.InMemory) :
    Copies (ε := ε) width height entry.2 (thumbX selected i) gutter (thumbAt selected i entry)
      (drawThumb (tileDims selected).1 i entry) := by
  obtain ⟨hinX, hinY⟩ := thumb_inside hi
  have hlt := (List.getElem?_eq_some_iff.mp hi).1
  have hsmall := width.toNat_lt
  have hx0 : (tileOffset (i % 2 ^ 32) (tileDims selected).1 : Outcome ε Nat) =
      .ok (thumbX selected i) := by
    rw [Nat.mod_eq_of_lt (hlt.trans hcount)]
    exact tileOffset_eq (by unfold thumbX at *; omega) hpitch
  exact .after (fun _ _ => hx0) (blit_copies hentry (by omega) (by omega))

theorem drawThumbs_spec (hcount : selected.length < 2 ^ 32)
    (hselected : ∀ p ∈ selected, p.2.InMemory) {width height : UInt32}
    (hwidth : width.toNat = thumbX selected selected.length)
    (hheight : height.toNat = thumbH selected) (hpitch : (tileDims selected).1 + gutter < 2 ^ 32)
    {blank : Rgb24Frame} (hblank : blank.Sized width height) :
    ∃ strip, (forEach (drawThumb (tileDims selected).1) 0 selected blank : Outcome ε _) =
        .ok strip ∧ strip.Sized width height ∧
      ∀ i entry, selected[i]? = some entry → Set.EqOn strip.pixelAt
        (fun p => entry.2.pixelAt (p.1 - thumbX selected i, p.2 - gutter))
        (thumbAt selected i entry) := by
  refine forEach_fills ?_ hblank
  intro i entry hi s hs
  obtain ⟨s', hdraw, hs', hfill, hkeep⟩ := drawThumb_copies (ε := ε) hcount hwidth hheight hpitch
    hi (hselected entry (List.mem_of_getElem? hi)) s hs
  refine ⟨s', hdraw, hs', hfill, fun j hj e he p hp => hkeep fun hpi => ?_⟩
  -- a thumb before it ends a gutter to its left
  have hband := tileOffset_lt hj (tileDims selected).1
  have hle := (le_tileDims (List.mem_of_getElem? he)).1
  rw [thumbAt, mem_rect] at hp hpi
  unfold thumbX at hp hpi
  omega

end Strip

/-- What a thumbnail strip of some frames is: evenly spread positions that
`dedup` leaves alone, and the frames there, each on its place inside the strip,
whose only way to fail is its own size. -/
structure ThumbsEvenly (frames : List IndexedFrame) (indices : List Nat)
    (selected : List IndexedFrame) : Prop where
  positions : (thumbPositions frames.length : Outcome Empty (List Nat)) = .ok indices
  nothing_removed : dedup indices = indices
  count : indices.length = min 16 frames.length
  increasing : indices.Pairwise (· < ·)
  first : indices[0]? = some 0
  last : 2 ≤ frames.length → indices[indices.length - 1]? = some (frames.length - 1)
  gaps : ∃ q, ∀ i a b, indices[i]? = some a → indices[i + 1]? = some b →
    b = a + q ∨ b = a + q + 1
  selection : (thumbSelected frames : Outcome Empty (List IndexedFrame)) = .ok selected
  selected_count : selected.length = min 16 frames.length
  selected_at : ∀ j : Nat, selected[j]? = indices[j]?.bind fun i => frames[i]?
  inside : ∀ i entry, selected[i]? = some entry →
    thumbX selected i + entry.2.width.toNat ≤ thumbX selected selected.length ∧
      gutter + entry.2.height.toNat ≤ thumbH selected
  drawn : ∀ blank, (thumbBlank selected : Outcome Empty Rgb24Frame) = .ok blank →
    blank.width.toNat = thumbX selected selected.length ∧ blank.height.toNat = thumbH selected ∧
    ∃ strip, (thumbStrip frames : Outcome Empty Rgb24Frame) = .ok strip ∧
      strip.width = blank.width ∧ strip.height = blank.height ∧
      ∀ i entry, selected[i]? = some entry → ∀ x < entry.2.width.toNat,
        ∀ y < entry.2.height.toNat,
          strip.pixel (thumbX selected i + x) (gutter + y) = entry.2.pixel x y
  not_drawn : (thumbBlank selected : Outcome Empty Rgb24Frame) = .panic →
    (thumbStrip frames : Outcome Empty Rgb24Frame) = .panic

section Even

variable {n : Nat}

theorem evenPositions_first (hn : 1 ≤ n) : (evenPositions n)[0]? = some 0 := by
  rw [getElem?_evenPositions (by omega), spread_zero]

theorem evenPositions_last (hn : 2 ≤ n) :
    (evenPositions n)[(evenPositions n).length - 1]? = some (n - 1) := by
  rw [length_evenPositions, getElem?_evenPositions (by omega), spread_last (by omega)]

theorem evenPositions_gap {i a b : Nat} (ha : (evenPositions n)[i]? = some a)
    (hb : (evenPositions n)[i + 1]? = some b) :
    b = a + (n - 1) / (min 16 n - 1) ∨ b = a + (n - 1) / (min 16 n - 1) + 1 := by
  have hlt := (List.getElem?_eq_some_iff.mp hb).1
  rw [length_evenPositions] at hlt
  rw [getElem?_evenPositions (by omega), Option.some.injEq] at ha hb
  subst ha hb
  have hgap := spread_gap (m := n - 1) (d := min 16 n - 1) (by omega) i
  omega

end Even

/-- The thumbnail strip samples the whole range evenly. -/
theorem thumbStrip_evenly {frames : List IndexedFrame} (hne : frames ≠ [])
    (hfits : frames.length * 16 < 2 ^ 64) (hframes : ∀ p ∈ frames, p.2.InMemory) :
    ∃ indices selected, ThumbsEvenly frames indices selected := by
  have hpos := List.length_pos_iff.mpr hne
  obtain ⟨selected, hselection, hlen, hget⟩ := thumbSelected_eq (ε := Empty) hne hfits
  have hcount : selected.length < 2 ^ 32 := by omega
  have hmem : ∀ p ∈ selected, p.2.InMemory := by
    intro p hp
    obtain ⟨j, hj⟩ := List.mem_iff_getElem?.mp hp
    rw [hget, Option.bind_eq_some_iff] at hj
    obtain ⟨i, -, hi⟩ := hj
    exact hframes p (List.mem_of_getElem? hi)
  have hbody : (thumbStrip frames : Outcome Empty Rgb24Frame) = thumbBlank selected >>=
      forEach (drawThumb (tileDims selected).1) 0 selected := by
    rw [thumbStrip, if_neg (mt List.isEmpty_iff.mp hne), hselection, ok_bind]
  refine ⟨evenPositions frames.length, selected, thumbPositions_eq hpos hfits,
    dedup_evenPositions, length_evenPositions, evenPositions_sorted, evenPositions_first hpos,
    evenPositions_last, ⟨_, fun i a b => evenPositions_gap⟩, hselection, hlen, hget, ?_, ?_, ?_⟩
  · intro i entry hi
    obtain ⟨hinX, hinY⟩ := thumb_inside hi
    omega
  · intro blank hblank
    obtain ⟨width, height, hsized, hwidth, hheight, hpitch⟩ := thumbBlank_sized hcount hblank
    obtain ⟨strip, hdraw, hstrip, hshown⟩ :=
      drawThumbs_spec (ε := Empty) hcount hmem hwidth hheight hpitch hsized
    refine ⟨hsized.width_eq ▸ hwidth, hsized.height_eq ▸ hheight, strip, ?_, ?_, ?_, ?_⟩
    · rw [hbody, hblank, ok_bind, hdraw]
    · rw [hstrip.width_eq, hsized.width_eq]
    · rw [hstrip.height_eq, hsized.height_eq]
    · intro i entry hi x hx y hy
      obtain ⟨hinX, hinY⟩ := thumb_inside hi
      exact pixel_of_copied (hshown i entry hi) (by rw [hstrip.width_eq]; omega)
        (by rw [hstrip.height_eq]; omega) hx hy
  · intro hpanic
    rw [hbody, hpanic, panic_bind]

def threeFrames : List IndexedFrame :=
  [(0, ⟨1, 1, [9, 8, 7]⟩), (1, ⟨2, 1, zeros 6⟩), (2, ⟨1, 3, zeros 9⟩)]

theorem thumbStrip_evenly_threeFrames :
    ∃ indices selected, ThumbsEvenly threeFrames indices selected := by
  have hne : threeFrames ≠ [] := List.cons_ne_nil _ _
  have hfits : threeFrames.length * 16 < 2 ^ 64 := by decide
  have hframes : ∀ p ∈ threeFrames, p.2.InMemory := by
    have hall : ∀ p ∈ threeFrames, p.2.pixels.length = 3 * p.2.width.toNat * p.2.height.toNat ∧
        p.2.pixels.length ≤ isizeMax := by decide
    exact fun p hp => ⟨(hall p hp).1, (hall p hp).2⟩
  exact thumbStrip_evenly hne hfits hframes

end ReplayRenderer
