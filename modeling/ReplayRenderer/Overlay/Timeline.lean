import ReplayRenderer.Overlay.Draw

/-!
The score strip: a step line over the frames of a render. It is drawn in one
pass over the columns with a cursor in the nodes that only goes forward; the
direct definition looks up the last node that has begun at each column's
frame.
-/

namespace ReplayRenderer

open Lib Lib.Outcome

def stripBg : Rgb := ⟨24, 24, 28⟩
def stripLine : Rgb := ⟨90, 200, 120⟩

structure TimelineNode where
  /-- First captured frame of the node's span. -/
  firstFrame : UInt64
  /-- Progress score in milliunits. -/
  scoreMilli : Int64
  deriving DecidableEq, Repr

structure StripSpec where
  width : UInt32
  /-- The strip is `24 * s` pixels high. -/
  s : UInt32
  totalFrames : UInt64
  nodes : List TimelineNode
  deriving DecidableEq, Repr

/-- `(x as u128 * total_frames.max(1) as u128 / width as u128) as u64`. -/
def columnFrame (totalFrames : UInt64) (width : UInt32) (x : Nat) : UInt64 :=
  UInt64.ofNat (x * (max totalFrames 1).toNat / width.toNat)

/-- The least and the greatest score, from `(i64::MAX, i64::MIN)`. -/
def scoreRange (nodes : List TimelineNode) : Int × Int :=
  nodes.foldl (fun r n => (min r.1 n.scoreMilli.toInt, max r.2 n.scoreMilli.toInt))
    (2 ^ 63 - 1, -2 ^ 63)

section Source

variable {ε : Type}

def scoreSpan (nodes : List TimelineNode) (lo hi : Int) : Outcome ε Int :=
  if nodes.isEmpty ∨ hi ≤ lo then pure 1 else i64 (hi - lo)

/-- The closure of the same name; the span it divides by is positive. -/
def scoreToY (h lo span score : Int) : Outcome ε Int := do
  let usableH ← i64 (h - 2)
  let top ← i64 (h - 2)
  let above ← i64 (score - lo)
  let rows ← i64 (usableH - 1)
  let scaled ← i64 (above * rows)
  i64 (top - scaled.tdiv span)

/-- The `while` loop: on to the last of the nodes in a row that have begun. -/
def advanceNode (nodes : List TimelineNode) (frame : UInt64) : Nat → Nat → Nat
  | 0, nodeIdx => nodeIdx
  | fuel + 1, nodeIdx =>
    match nodes[nodeIdx + 1]? with
    | some next =>
      if next.firstFrame ≤ frame then advanceNode nodes frame fuel (nodeIdx + 1) else nodeIdx
    | none => nodeIdx

def stripColumn (spec : StripSpec) (h lo span : Int) (x : Nat) :
    Nat × Rgb24Frame → Outcome ε (Nat × Rgb24Frame)
  | (nodeIdx, image) => do
    let frame := columnFrame spec.totalFrames spec.width x
    let nodeIdx := advanceNode spec.nodes frame spec.nodes.length nodeIdx
    let node ← Outcome.expect spec.nodes[nodeIdx]?
    let y ← scoreToY h lo span node.scoreMilli.toInt
    let image ← putPx image x y stripLine
    let below ← i64 (y + 1)
    let image ← putPx image x below stripLine
    pure (nodeIdx, image)

def stepLine (spec : StripSpec) (h : Nat) : Outcome ε Rgb24Frame := do
  let image ← Rgb24Frame.black spec.width (UInt32.ofNat h)
  let image ← fillRect image 0 0 spec.width.toNat h stripBg
  let (lo, hi) := scoreRange spec.nodes
  let span ← scoreSpan spec.nodes lo hi
  if spec.nodes.isEmpty then pure image
  else do
    let (_, image) ← forRange (stripColumn spec h lo span) (0, image) spec.width.toNat
    pure image

end Source

/-! ### The direct definition -/

/-- The greatest index of a node that has begun at a frame, or zero. -/
def nodeAt (nodes : List TimelineNode) (frame : Nat) : Nat :=
  Nat.findGreatest
    (fun i => i = 0 ∨ (nodes[i]?.any fun n => n.firstFrame.toNat ≤ frame) = true)
    (nodes.length - 1)

namespace StripSpec

variable (spec : StripSpec)

def height : Nat := 24 * spec.s.toNat

/-- The range of the scores, never zero. -/
def span : Int :=
  if spec.nodes.isEmpty ∨ (scoreRange spec.nodes).2 ≤ (scoreRange spec.nodes).1 then 1
  else (scoreRange spec.nodes).2 - (scoreRange spec.nodes).1

def rowOf (score : Int) : Int :=
  spec.height - 2 - ((score - (scoreRange spec.nodes).1) * (spec.height - 3)).tdiv spec.span

def frameOf (x : Nat) : Nat := x * (max spec.totalFrames 1).toNat / spec.width.toNat

def columnNode (x : Nat) : Option TimelineNode := spec.nodes[nodeAt spec.nodes (spec.frameOf x)]?

/-- The line is two pixels thick. -/
def linePixel (x y : Nat) : Bytes :=
  match spec.columnNode x with
  | some node =>
    if (y : Int) = spec.rowOf node.scoreMilli.toInt ∨
        (y : Int) = spec.rowOf node.scoreMilli.toInt + 1 then stripLine.bytes
    else stripBg.bytes
  | none => stripBg.bytes

def directLine : Rgb24Frame :=
  Rgb24Frame.ofPixels spec.width (UInt32.ofNat spec.height) spec.linePixel

/-- What a strip is asked to be drawn from: nodes in path order, and scores
whose range leaves the arithmetic room. -/
structure Drawable : Prop where
  width_pos : 1 ≤ spec.width.toNat
  s_pos : 1 ≤ spec.s.toNat
  height_lt : 24 * spec.s.toNat < 2 ^ 32
  nonempty : spec.nodes ≠ []
  sorted : spec.nodes.Pairwise fun m n => m.firstFrame ≤ n.firstFrame
  span_fits : ((scoreRange spec.nodes).2 - (scoreRange spec.nodes).1) * (24 * spec.s.toNat) < 2 ^ 63

end StripSpec

/-! ### The rows of the line -/

theorem foldl_range {α : Type} (f : α → Int) (xs : List α) (r : Int × Int) :
    (xs.foldl (fun r a => (min r.1 (f a), max r.2 (f a))) r).1 ≤ r.1 ∧
      r.2 ≤ (xs.foldl (fun r a => (min r.1 (f a), max r.2 (f a))) r).2 ∧
      ∀ a ∈ xs, (xs.foldl (fun r a => (min r.1 (f a), max r.2 (f a))) r).1 ≤ f a ∧
        f a ≤ (xs.foldl (fun r a => (min r.1 (f a), max r.2 (f a))) r).2 := by
  induction xs generalizing r with
  | nil => exact ⟨le_refl _, le_refl _, by simp⟩
  | cons a xs ih =>
      obtain ⟨hlo, hhi, hrest⟩ := ih (min r.1 (f a), max r.2 (f a))
      obtain ⟨hlo, hlo'⟩ := le_min_iff.mp hlo
      obtain ⟨hhi, hhi'⟩ := max_le_iff.mp hhi
      refine ⟨hlo, hhi, fun b hb => ?_⟩
      rcases List.mem_cons.mp hb with rfl | hb
      · exact ⟨hlo', hhi'⟩
      · exact hrest b hb

theorem scoreRange_bounds {nodes : List TimelineNode} {n : TimelineNode} (hn : n ∈ nodes) :
    (scoreRange nodes).1 ≤ n.scoreMilli.toInt ∧ n.scoreMilli.toInt ≤ (scoreRange nodes).2 :=
  (foldl_range (fun n : TimelineNode => n.scoreMilli.toInt) nodes _).2.2 n hn

theorem StripSpec.height_eq (spec : StripSpec) : (spec.height : Int) = 24 * spec.s.toNat := by
  rw [StripSpec.height, Nat.cast_mul, Nat.cast_ofNat]

section Rows

variable {ε : Type} {spec : StripSpec} (h : spec.Drawable) {n : TimelineNode}

include h

namespace StripSpec.Drawable

/-- The closure divides by a positive span that the scores do not exceed. -/
theorem span_spec :
    1 ≤ spec.span ∧ (scoreRange spec.nodes).2 - (scoreRange spec.nodes).1 ≤ spec.span := by
  have hne : spec.nodes.isEmpty = false := List.isEmpty_eq_false_iff.mpr h.nonempty
  rw [StripSpec.span, hne]
  simp only [Bool.false_eq_true, false_or]
  split <;> omega

theorem rise_bounds (hn : n ∈ spec.nodes) :
    0 ≤ (n.scoreMilli.toInt - (scoreRange spec.nodes).1) * (spec.height - 3) ∧
      (n.scoreMilli.toInt - (scoreRange spec.nodes).1) * (spec.height - 3) < 2 ^ 63 ∧
      ((n.scoreMilli.toInt - (scoreRange spec.nodes).1) * (spec.height - 3)).tdiv spec.span ≤
        spec.height - 3 := by
  obtain ⟨hlo, hhi⟩ := scoreRange_bounds hn
  obtain ⟨hspan, hrange⟩ := h.span_spec
  have hs := h.s_pos
  have hfits := h.span_fits
  have hheight := spec.height_eq
  have hrise : 0 ≤ (n.scoreMilli.toInt - (scoreRange spec.nodes).1) * (spec.height - 3) :=
    mul_nonneg (by omega) (by omega)
  refine ⟨hrise, ?_, ?_⟩
  · refine lt_of_le_of_lt (mul_le_mul (by omega) ?_ (by omega) (by omega)) hfits
    omega
  · rw [Int.tdiv_eq_ediv_of_nonneg hrise, Int.mul_comm]
    refine Int.ediv_le_of_le_mul (by omega) ?_
    exact mul_le_mul_of_nonneg_left (by omega) (by omega)

theorem rowOf_bounds (hn : n ∈ spec.nodes) :
    1 ≤ spec.rowOf n.scoreMilli.toInt ∧
      spec.rowOf n.scoreMilli.toInt ≤ 24 * spec.s.toNat - 2 := by
  obtain ⟨hrise, -, hrow⟩ := h.rise_bounds hn
  have hdown := Int.tdiv_nonneg hrise (show 0 ≤ spec.span by have := h.span_spec.1; omega)
  have hheight := spec.height_eq
  rw [StripSpec.rowOf]
  omega

theorem rowOf_le {m : TimelineNode} (hm : m ∈ spec.nodes) (hn : n ∈ spec.nodes)
    (hle : m.scoreMilli ≤ n.scoreMilli) :
    spec.rowOf n.scoreMilli.toInt ≤ spec.rowOf m.scoreMilli.toInt := by
  have hle : m.scoreMilli.toInt ≤ n.scoreMilli.toInt := Int64.le_iff_toInt_le.mp hle
  have hs := h.s_pos
  rw [StripSpec.rowOf, StripSpec.rowOf, Int.tdiv_eq_ediv_of_nonneg (h.rise_bounds hm).1,
    Int.tdiv_eq_ediv_of_nonneg (h.rise_bounds hn).1]
  apply Int.sub_le_sub_left
  refine Int.ediv_le_ediv (by have := h.span_spec.1; omega) ?_
  have hheight := spec.height_eq
  exact mul_le_mul_of_nonneg_right (by omega) (by omega)

theorem scoreToY_eq (hn : n ∈ spec.nodes) :
    (scoreToY spec.height (scoreRange spec.nodes).1 spec.span n.scoreMilli.toInt : Outcome ε Int) =
      .ok (spec.rowOf n.scoreMilli.toInt) := by
  obtain ⟨hlo, hhi⟩ := scoreRange_bounds hn
  obtain ⟨hrise, hlt, hrow⟩ := h.rise_bounds hn
  have hdown := Int.tdiv_nonneg hrise (show 0 ≤ spec.span by have := h.span_spec.1; omega)
  have hheight := spec.height_eq
  have hlimit := h.height_lt
  have hs := h.s_pos
  have hgap : (scoreRange spec.nodes).2 - (scoreRange spec.nodes).1 < 2 ^ 63 := by
    refine lt_of_le_of_lt ?_ h.span_fits
    exact le_mul_of_one_le_right (by omega) (by omega)
  have hrows : (spec.height : Int) - 2 - 1 = spec.height - 3 := by omega
  rw [scoreToY, i64_of_bounds (n := spec.height - 2) (by omega) (by omega), ok_bind, ok_bind,
    i64_of_bounds (by omega) (by omega), ok_bind, i64_of_bounds (by omega) (by omega), ok_bind,
    hrows, i64_of_bounds (by omega) hlt, ok_bind, i64_of_bounds (by omega) (by omega)]
  rfl

end StripSpec.Drawable

end Rows

/-! ### The owner of a frame -/

section Owner

variable {nodes : List TimelineNode} {frame frame' : Nat}

abbrev BegunAt (nodes : List TimelineNode) (frame i : Nat) : Prop :=
  (nodes[i]?.any fun n => n.firstFrame.toNat ≤ frame) = true

theorem begunAt_iff {i : Nat} :
    BegunAt nodes frame i ↔ ∃ n, nodes[i]? = some n ∧ n.firstFrame.toNat ≤ frame := by
  rw [BegunAt, Option.any_eq_true]
  simp only [decide_eq_true_eq]

theorem nodeAt_lt (hne : nodes ≠ []) : nodeAt nodes frame < nodes.length :=
  lt_of_le_of_lt (Nat.findGreatest_le _)
    (Nat.sub_lt (List.length_pos_iff.mpr hne) Nat.one_pos)

theorem not_begunAt_of_gt {i : Nat} (hi : nodeAt nodes frame < i) : ¬BegunAt nodes frame i := by
  intro hbegun
  obtain ⟨n, hn, -⟩ := begunAt_iff.mp hbegun
  have hlt := (List.getElem?_eq_some_iff.mp hn).1
  exact Nat.findGreatest_is_greatest hi (by omega) (Or.inr hbegun)

/-- In path order, what comes ahead of a begun node has begun. -/
theorem begunAt_of_le (hsorted : nodes.Pairwise fun m n => m.firstFrame ≤ n.firstFrame) {i : Nat}
    (hpos : 0 < i) (hi : i ≤ nodeAt nodes frame) : BegunAt nodes frame i := by
  have howner : nodeAt nodes frame = 0 ∨ BegunAt nodes frame (nodeAt nodes frame) :=
    Nat.findGreatest_of_ne_zero (m := nodeAt nodes frame) rfl (by omega)
  obtain ⟨n, hn, hbegun⟩ := begunAt_iff.mp (howner.resolve_left (by omega))
  rcases hi.lt_or_eq with hlt | rfl
  · obtain ⟨hroom, rfl⟩ := List.getElem?_eq_some_iff.mp hn
    have hle := List.pairwise_iff_getElem.mp hsorted i _ (by omega) hroom hlt
    exact begunAt_iff.mpr ⟨_, List.getElem?_eq_getElem (by omega),
      (UInt64.le_iff_toNat_le.mp hle).trans hbegun⟩
  · exact begunAt_iff.mpr ⟨n, hn, hbegun⟩

theorem nodeAt_mono (hle : frame ≤ frame') : nodeAt nodes frame ≤ nodeAt nodes frame' := by
  refine Nat.findGreatest_mono (fun i hi => hi.imp_right fun hbegun => ?_) (le_refl _)
  obtain ⟨n, hn, hfirst⟩ := begunAt_iff.mp hbegun
  exact begunAt_iff.mpr ⟨n, hn, hfirst.trans hle⟩

/-- The cursor stops at the owner, from wherever it is on the way to it. -/
theorem advanceNode_eq (hsorted : nodes.Pairwise fun m n => m.firstFrame ≤ n.firstFrame)
    {frame : UInt64} {fuel nodeIdx : Nat} (hle : nodeIdx ≤ nodeAt nodes frame.toNat)
    (hfuel : nodeAt nodes frame.toNat ≤ nodeIdx + fuel) :
    advanceNode nodes frame fuel nodeIdx = nodeAt nodes frame.toNat := by
  induction fuel generalizing nodeIdx with
  | zero => exact Nat.le_antisymm hle hfuel
  | succ fuel ih =>
      rcases hle.lt_or_eq with hlt | heq
      · obtain ⟨n, hn, hbegun⟩ := begunAt_iff.mp (begunAt_of_le hsorted (Nat.succ_pos nodeIdx) hlt)
        rw [advanceNode, hn]
        simp only [if_pos (UInt64.le_iff_toNat_le.mpr hbegun)]
        exact ih hlt (by omega)
      · have hbehind : nodeAt nodes frame.toNat < nodeIdx + 1 := by omega
        have hnext := mt begunAt_iff.mpr (not_begunAt_of_gt hbehind)
        rw [advanceNode]
        cases hn : nodes[nodeIdx + 1]? with
        | none => exact heq
        | some n =>
            have hwait : ¬n.firstFrame ≤ frame := fun hfirst =>
              hnext ⟨n, hn, UInt64.le_iff_toNat_le.mp hfirst⟩
            simp only [if_neg hwait]
            exact heq

end Owner

/-! ### Frames and columns -/

section Columns

variable {total : UInt64} {width : UInt32} {spec : StripSpec} {x x' : Nat}

theorem toNat_max_one (total : UInt64) : (max total 1).toNat = max total.toNat 1 := by
  rw [show max total 1 = if total ≤ 1 then 1 else total from rfl, apply_ite UInt64.toNat,
    Nat.max_def]
  simp only [UInt64.le_iff_toNat_le, UInt64.reduceToNat]

theorem max_one_pos (total : UInt64) : 1 ≤ (max total 1).toNat := by
  rw [toNat_max_one]
  exact Nat.le_max_right _ _

theorem toNat_columnFrame (hx : x < width.toNat) :
    (columnFrame total width x).toNat = x * (max total 1).toNat / width.toNat := by
  have hlt : x * (max total 1).toNat / width.toNat < (max total 1).toNat := by
    rw [Nat.div_lt_iff_lt_mul (by omega), Nat.mul_comm]
    exact Nat.mul_lt_mul_of_pos_left hx (max_one_pos total)
  exact UInt64.toNat_ofNat_of_lt' (hlt.trans (max total 1).toNat_lt)

theorem StripSpec.frameOf_mono (hle : x ≤ x') : spec.frameOf x ≤ spec.frameOf x' :=
  Nat.div_le_div_right (Nat.mul_le_mul_right _ hle)

end Columns

/-! ### The pass over the columns -/

def linePoints (x : Nat) (row : Int) : Set (Int × Int) :=
  {p | p.1 = x ∧ (p.2 = row ∨ p.2 = row + 1)}

theorem drawLine_colors {ε : Type} {width height : UInt32} (x : Nat) (row : Int)
    (hle : -2 ^ 63 ≤ row) (hlt : row < 2 ^ 63 - 1) :
    Colors (ε := ε) width height stripLine (linePoints x row) fun image =>
      putPx image x row stripLine >>= fun image =>
        i64 (row + 1) >>= fun below => putPx image x below stripLine := by
  have hpoints : linePoints x row = {((x : Int), row)} ∪ {((x : Int), row + 1)} := by
    ext p
    simp only [linePoints, Set.mem_ofPred_eq, Set.mem_union, Set.mem_singleton_iff, Prod.ext_iff]
    omega
  rw [hpoints]
  refine Paints.seq (color_idem stripLine) (putPx_colors x row) ?_
  exact .after (f := fun below image => putPx image x below stripLine)
    (fun _ _ => i64_of_bounds (by omega) (by omega)) (putPx_colors x (row + 1))

section Pass

variable {ε : Type} {spec : StripSpec} (h : spec.Drawable) {x : Nat}

include h

theorem StripSpec.Drawable.exists_columnNode (x : Nat) :
    ∃ n ∈ spec.nodes, spec.columnNode x = some n :=
  ⟨_, List.getElem_mem (nodeAt_lt h.nonempty), List.getElem?_eq_getElem _⟩

/-- One column: the cursor goes to the owner, and the line is drawn at its
score. -/
theorem stripColumn_spec (hx : x < spec.width.toNat) {nodeIdx : Nat}
    (hle : nodeIdx ≤ nodeAt spec.nodes (spec.frameOf x)) {n : TimelineNode}
    (hn : spec.columnNode x = some n) {image : Rgb24Frame} {height : UInt32}
    (himage : image.Sized spec.width height) :
    ∃ image', (stripColumn spec spec.height (scoreRange spec.nodes).1 spec.span x (nodeIdx, image) :
        Outcome ε _) = .ok (nodeAt spec.nodes (spec.frameOf x), image') ∧
      image'.Sized spec.width height ∧
      (∀ p ∈ linePoints x (spec.rowOf n.scoreMilli.toInt),
        image'.pixelAt p = (image.pixelAt p).map fun _ => stripLine.bytes) ∧
      Set.EqOn image'.pixelAt image.pixelAt (linePoints x (spec.rowOf n.scoreMilli.toInt))ᶜ := by
  have hmem : n ∈ spec.nodes := List.mem_of_getElem? hn
  have hbounds := h.rowOf_bounds hmem
  have hlimit := h.height_lt
  have hframe : (columnFrame spec.totalFrames spec.width x).toNat = spec.frameOf x :=
    toNat_columnFrame hx
  have howner : nodeAt spec.nodes (spec.frameOf x) < spec.nodes.length := nodeAt_lt h.nonempty
  have hcursor : advanceNode spec.nodes (columnFrame spec.totalFrames spec.width x)
      spec.nodes.length nodeIdx = nodeAt spec.nodes (spec.frameOf x) := by
    rw [← hframe] at hle howner ⊢
    exact advanceNode_eq h.sorted hle (by omega)
  obtain ⟨image', hdraw, himage', hin, hout⟩ :=
    drawLine_colors (ε := ε) x (spec.rowOf n.scoreMilli.toInt) (by omega) (by omega) image himage
  refine ⟨image', ?_, himage', hin, hout⟩
  obtain ⟨image₁, hupper, hlower⟩ := bind_eq_ok.mp hdraw
  obtain ⟨below, hbelow, hlower⟩ := bind_eq_ok.mp hlower
  unfold StripSpec.columnNode at hn
  simp only [stripColumn, hcursor, hn, expect_some, ok_bind, h.scoreToY_eq hmem, hupper, hbelow,
    hlower, pure_eq]

structure StripSpec.Drawn (spec : StripSpec) (i : Nat) (state : Nat × Rgb24Frame) : Prop where
  cursor : ∀ x, i ≤ x → state.1 ≤ nodeAt spec.nodes (spec.frameOf x)
  sized : state.2.Sized spec.width (UInt32.ofNat spec.height)
  pixels : ∀ x < spec.width.toNat, ∀ y < spec.height,
    state.2.pixelAt (x, y) = some (if x < i then spec.linePixel x y else stripBg.bytes)

theorem drawn_step {i : Nat} (hi : i < spec.width.toNat) {state : Nat × Rgb24Frame}
    (hstate : spec.Drawn i state) :
    ∃ state', (stripColumn spec spec.height (scoreRange spec.nodes).1 spec.span i state :
        Outcome ε _) = .ok state' ∧ spec.Drawn (i + 1) state' := by
  obtain ⟨nodeIdx, image⟩ := state
  obtain ⟨n, -, hn⟩ := h.exists_columnNode i
  obtain ⟨image', hcolumn, himage', hin, hout⟩ :=
    stripColumn_spec (ε := ε) h hi (hstate.cursor i (le_refl i)) hn hstate.sized
  refine ⟨_, hcolumn, ?_, himage', fun x hx y hy => ?_⟩
  · intro x hx
    exact nodeAt_mono (StripSpec.frameOf_mono (by omega))
  have hbefore := hstate.pixels x hx y hy
  by_cases hline : ((x : Int), (y : Int)) ∈ linePoints i (spec.rowOf n.scoreMilli.toInt)
  · obtain ⟨hcol, hrow⟩ := hline
    obtain rfl : x = i := Int.ofNat.inj hcol
    rw [hin _ ⟨hcol, hrow⟩, hbefore, Option.map_some, if_pos (Nat.lt_succ_self x),
      StripSpec.linePixel, hn]
    simp only [if_pos hrow]
  · rw [hout hline, hbefore]
    rcases lt_trichotomy x i with hlt | rfl | hgt
    · rw [if_pos hlt, if_pos (by omega)]
    · have hrow : ¬((y : Int) = spec.rowOf n.scoreMilli.toInt ∨
          (y : Int) = spec.rowOf n.scoreMilli.toInt + 1) := fun hrow => hline ⟨rfl, hrow⟩
      rw [if_neg (lt_irrefl x), if_pos (Nat.lt_succ_self x), StripSpec.linePixel, hn]
      simp only [if_neg hrow]
    · rw [if_neg (by omega), if_neg (by omega)]

theorem StripSpec.Drawable.toNat_height : (UInt32.ofNat spec.height).toNat = spec.height :=
  UInt32.toNat_ofNat_of_lt' h.height_lt

theorem drawn_end {state : Nat × Rgb24Frame} (hstate : spec.Drawn spec.width.toNat state) :
    state.2 = spec.directLine := by
  have hsized := hstate.sized
  rw [Rgb24Frame.eq_ofPixels hsized.wellFormed, hsized.width_eq, hsized.height_eq]
  refine Rgb24Frame.ofPixels_congr fun x hx y hy => ?_
  have hpixel := hstate.pixels x hx y (h.toNat_height ▸ hy)
  rw [if_pos hx, Rgb24Frame.pixelAt_natCast (hsized.width_eq ▸ hx) (hsized.height_eq ▸ hy)]
    at hpixel
  exact Option.some.inj hpixel

theorem drawn_start {image : Rgb24Frame}
    (himage : image.Sized spec.width (UInt32.ofNat spec.height)) :
    ∃ image', (fillRect image 0 0 spec.width.toNat spec.height stripBg : Outcome ε _) =
      .ok image' ∧ spec.Drawn 0 (0, image') := by
  have hlimit := h.height_lt
  have hwidth := spec.width.toNat_lt
  have hheight := spec.height_eq
  obtain ⟨image', hfill, himage', hin, -⟩ :=
    fillRect_colors (ε := ε) 0 0 spec.width.toNat spec.height stripBg (by omega) (by omega)
      image himage
  refine ⟨image', hfill, fun x _ => Nat.zero_le _, himage', fun x hx y hy => ?_⟩
  have hmem : ((x : Int), (y : Int)) ∈ rect 0 0 spec.width.toNat spec.height := by
    rw [mem_rect]
    simp only
    omega
  have hpixel : ((x : Int), (y : Int)) ∈
      rect 0 0 spec.width.toNat (UInt32.ofNat spec.height).toNat := by
    rwa [h.toNat_height]
  rw [hin _ hmem, himage.pixelAt_of_mem hpixel, if_neg (Nat.not_lt_zero x)]
  rfl

theorem scoreSpan_eq :
    (scoreSpan spec.nodes (scoreRange spec.nodes).1 (scoreRange spec.nodes).2 : Outcome ε Int) =
      .ok spec.span := by
  have hs := h.s_pos
  rw [scoreSpan, StripSpec.span]
  split
  · rfl
  · next hsome =>
      have hgap := not_le.mp (not_or.mp hsome).2
      refine i64_of_bounds (by omega) (lt_of_le_of_lt ?_ h.span_fits)
      exact le_mul_of_one_le_right (by omega) (by omega)

theorem columns_eq {background : Rgb24Frame} (hstart : spec.Drawn 0 (0, background)) :
    ∃ nodeIdx, (forRange (stripColumn spec spec.height (scoreRange spec.nodes).1 spec.span)
      (0, background) spec.width.toNat : Outcome ε _) = .ok (nodeIdx, spec.directLine) ∧
      spec.directLine.Sized spec.width (UInt32.ofNat spec.height) := by
  obtain ⟨⟨nodeIdx, line⟩, hpass, hend⟩ := forRange_inv (P := spec.Drawn) hstart
    fun i hi state hstate => drawn_step (ε := ε) h hi hstate
  obtain rfl : line = spec.directLine := drawn_end h hend
  exact ⟨nodeIdx, hpass, hend.sized⟩

/-- The one pass draws the direct line, unless the strip cannot be allocated. -/
theorem stepLine_eq :
    (stepLine spec spec.height : Outcome ε Rgb24Frame) =
      Rgb24Frame.black spec.width (UInt32.ofNat spec.height) >>= fun _ => .ok spec.directLine := by
  have hne : spec.nodes.isEmpty = false := List.isEmpty_eq_false_iff.mpr h.nonempty
  cases hblack : (Rgb24Frame.black spec.width (UInt32.ofNat spec.height) : Outcome ε _) with
  | err e => rw [stepLine, hblack, err_bind, err_bind]
  | panic => rw [stepLine, hblack, panic_bind, panic_bind]
  | ok image =>
      obtain ⟨background, hfill, hstart⟩ :=
        drawn_start (ε := ε) h (Rgb24Frame.sized_of_black hblack)
      obtain ⟨nodeIdx, hpass, -⟩ := columns_eq (ε := ε) h hstart
      have hspan := scoreSpan_eq (ε := ε) h
      rw [stepLine, hblack, ok_bind, hfill, ok_bind]
      show (scoreSpan spec.nodes (scoreRange spec.nodes).1 (scoreRange spec.nodes).2 >>= _) = _
      rw [hspan, ok_bind, hne]
      show (forRange (stripColumn spec spec.height (scoreRange spec.nodes).1 spec.span)
        (0, background) spec.width.toNat >>= _) = _
      rw [hpass, ok_bind, ok_bind]
      rfl

theorem directLine_sized {image : Rgb24Frame}
    (hblack : (Rgb24Frame.black spec.width (UInt32.ofNat spec.height) : Outcome ε _) = .ok image) :
    spec.directLine.Sized spec.width (UInt32.ofNat spec.height) := by
  obtain ⟨background, -, hstart⟩ := drawn_start (ε := ε) h (Rgb24Frame.sized_of_black hblack)
  obtain ⟨-, -, hsized⟩ := columns_eq (ε := ε) h hstart
  exact hsized

end Pass

/-! ### Reading the line -/

theorem StripSpec.length_linePixel (spec : StripSpec) (x y : Nat) :
    (spec.linePixel x y).length = 3 := by
  unfold StripSpec.linePixel
  split
  · split <;> rfl
  · rfl

def StripSpec.ShowsAt (spec : StripSpec) (image : Rgb24Frame) (x : Int) (n : TimelineNode) : Prop :=
  ∀ y < spec.height, image.pixelAt (x, y) =
    some (if (y : Int) = spec.rowOf n.scoreMilli.toInt ∨
      (y : Int) = spec.rowOf n.scoreMilli.toInt + 1 then stripLine.bytes else stripBg.bytes)

theorem directLine_showsAt {spec : StripSpec} (h : spec.Drawable) {x : Nat}
    (hx : x < spec.width.toNat) {n : TimelineNode} (hn : spec.columnNode x = some n) :
    spec.ShowsAt spec.directLine x n := by
  intro y hy
  have hlength := fun x (_ : x < spec.width.toNat) y
    (_ : y < (UInt32.ofNat spec.height).toNat) => spec.length_linePixel x y
  have hpixel := Rgb24Frame.pixel_ofPixels hlength hx (h.toNat_height.symm ▸ hy)
  rw [Rgb24Frame.pixelAt_natCast hx (h.toNat_height.symm ▸ hy)]
  refine congrArg some (hpixel.trans ?_)
  rw [StripSpec.linePixel, hn]

/-- The strip before its ticks is the direct one, its line is inside, and
higher scores are not lower. -/
structure StripSpec.LineIsDirect (spec : StripSpec) : Prop where
  drawn : (stepLine spec spec.height : Outcome Empty Rgb24Frame) =
    Rgb24Frame.black spec.width (UInt32.ofNat spec.height) >>= fun _ => .ok spec.directLine
  column : ∀ x < spec.width.toNat, ∃ n ∈ spec.nodes, spec.columnNode x = some n ∧
    (scoreToY spec.height (scoreRange spec.nodes).1 spec.span n.scoreMilli.toInt :
      Outcome Empty Int) = .ok (spec.rowOf n.scoreMilli.toInt) ∧
    1 ≤ spec.rowOf n.scoreMilli.toInt ∧ spec.rowOf n.scoreMilli.toInt ≤ 24 * spec.s.toNat - 2
  higher : ∀ m ∈ spec.nodes, ∀ n ∈ spec.nodes, m.scoreMilli ≤ n.scoreMilli →
    spec.rowOf n.scoreMilli.toInt ≤ spec.rowOf m.scoreMilli.toInt

/-- The one-pass step line is the direct one. -/
theorem lineIsDirect_of_drawable {spec : StripSpec} (h : spec.Drawable) : spec.LineIsDirect where
  drawn := stepLine_eq h
  column := by
    intro x _
    obtain ⟨n, hmem, hn⟩ := h.exists_columnNode x
    exact ⟨n, hmem, hn, h.scoreToY_eq hmem, h.rowOf_bounds hmem⟩
  higher := fun _ hm _ hn hle => h.rowOf_le hm hn hle

def sharedStart : StripSpec where
  width := 7
  s := 1
  totalFrames := 4
  nodes := [⟨0, -250⟩, ⟨2, 1000⟩, ⟨2, 400⟩]

theorem lineIsDirect_sharedStart : sharedStart.Drawable ∧ sharedStart.LineIsDirect := by
  have hdrawable : sharedStart.Drawable := by constructor <;> decide
  exact ⟨hdrawable, lineIsDirect_of_drawable hdrawable⟩

end ReplayRenderer
