import ReplayRenderer.Lib.Search
import ReplayRenderer.Verify.Bisect
import ReplayRenderer.Verify.MockReplay

/-!
Native bisection of a skewed recording is two binary searches on the run
budget, one over the recorded epochs and one over the icounts of a window.
What each leaves, after any number of probes, is what the bracket of the
search says.

The window of a finished epoch search holds the skew. An unfinished one need
not: when the first bad epoch is known so far only as an upper bound, the
epoch before it is taken for good without a probe.
-/

namespace ReplayRenderer

open Lib Lib.Outcome

/-! ### Spending runs -/

section Spending

variable {blake3 : Bytes → Bytes32}

variable {defect : InjectedDefect} {segment : DhilogSegment} {side : Side} {segmentIndex : UInt32}

theorem narrowLoop_of_zero {fuel : Nat} {st : IcountSearch} {s : HvState (MockHypervisor blake3)}
    (h : s.budget.remaining = 0) :
    narrowLoop defect segment side segmentIndex fuel st s =
      (.ok st, s) := by
  cases fuel with
  | zero => rfl
  | succ fuel =>
      rw [narrowLoop]
      split
      · rw [Proc.bind_apply_ok (spendRun_of_zero h)]
        rfl
      · rfl

theorem lastProbe_of_zero {st : IcountSearch} {s : HvState (MockHypervisor blake3)}
    (h : s.budget.remaining = 0) :
    lastProbe defect segment side segmentIndex st s =
      (.ok (st, none), s) := by
  rw [lastProbe]
  split
  · rw [Proc.bind_apply_ok (spendRun_of_zero h)]
    rfl
  · rfl

end Spending

/-! ### The search over epochs -/

def goodEpoch (at_ : UInt64) (i : Nat) : Bool := i < at_.toNat / mockEpochIcounts

/-- What a search over `n` epochs knows when `first ..= last` can be bad. -/
structure EpochsNarrowed (n end_ first last : Nat) (st : EpochSearch) : Prop where
  lo_eq : st.lo = first * mockEpochIcounts
  hi_eq : (last = n ∧ st.firstBad = none ∧ st.hi = end_) ∨
    (last < n ∧ st.firstBad = some last ∧ st.hi = (last + 1) * mockEpochIcounts)

theorem EpochsNarrowed.good {n end_ first last mid : Nat} {st : EpochSearch}
    (h : EpochsNarrowed n end_ first last st) (hle : first ≤ mid) (a : Nat) :
    EpochsNarrowed n end_ (mid + 1) last
      { st with lo := max st.lo ((mid + 1) * mockEpochIcounts), a } := by
  refine ⟨?_, h.hi_eq⟩
  show max st.lo ((mid + 1) * mockEpochIcounts) = (mid + 1) * mockEpochIcounts
  rw [h.lo_eq]
  exact max_eq_right (Nat.mul_le_mul_right _ (Nat.le_succ_of_le hle))

theorem EpochsNarrowed.bad {n end_ first last mid : Nat} {st : EpochSearch}
    (h : EpochsNarrowed n end_ first last st) (hlast : mid < last) (hn : mid < n)
    (hend : (mid + 1) * mockEpochIcounts ≤ end_) (b : Nat) :
    EpochsNarrowed n end_ first mid
      { st with
        hi := min st.hi ((mid + 1) * mockEpochIcounts)
        firstBad := some mid
        b } := by
  have hends : (mid + 1) * mockEpochIcounts ≤ st.hi := by
    rcases h.hi_eq with ⟨-, -, hhi⟩ | ⟨-, -, hhi⟩
    · rw [hhi]
      exact hend
    · rw [hhi]
      exact Nat.mul_le_mul_right _ (Nat.succ_le_succ hlast.le)
  exact ⟨h.lo_eq, .inr ⟨hn, rfl, min_eq_right hends⟩⟩

def EpochBracket (b : Bracket) (n end_ : Nat) (window : Nat × Nat) : Prop :=
  (b.last = n ∧ window = (b.first * mockEpochIcounts, end_)) ∨
    (b.last < n ∧ window = (b.last * mockEpochIcounts, (b.last + 1) * mockEpochIcounts))

/-- What the epoch before the first bad one adds to a finished or unfinished
search. -/
theorem window_of_narrowed {n end_ first last : Nat} {blake3 : Bytes → Bytes32} {seed : Bytes32}
    {l : List Moment} {st : EpochSearch}
    (hst : EpochsNarrowed n end_ first last st) (hle : first ≤ last) :
    ∃ window, (st.window (epochsOf blake3 seed l n) : Outcome HvFault _) =
        .ok window ∧
      ((last = n ∧ window = (first * mockEpochIcounts, end_)) ∨
        (last < n ∧
          window = (last * mockEpochIcounts, (last + 1) * mockEpochIcounts))) := by
  rcases hst.hi_eq with ⟨hlast, hbad, hhi⟩ | ⟨hlast, hbad, hhi⟩
  · refine ⟨(st.lo, st.hi), ?_, .inl ⟨hlast, by rw [hst.lo_eq, hhi]⟩⟩
    rw [EpochSearch.window, hbad]
  · refine ⟨(last * mockEpochIcounts, (last + 1) * mockEpochIcounts), ?_, .inr ⟨hlast, rfl⟩⟩
    rw [EpochSearch.window, hbad]
    simp only [getElem?_epochsOf hlast, expect_some, ok_bind, hhi, min_self]
    by_cases hpos : 0 < last
    · have hpred : last - 1 + 1 = last := Nat.sub_add_cancel hpos
      have hlo : max st.lo (last * mockEpochIcounts) = last * mockEpochIcounts := by
        rw [hst.lo_eq]
        exact max_eq_right (Nat.mul_le_mul_right _ hle)
      rw [if_pos hpos, getElem?_epochsOf (show last - 1 < n by omega)]
      simp only [hpred, expect_some, ok_bind, hlo, pure_eq]
    · obtain rfl : last = 0 := by omega
      rw [if_neg hpos, hst.lo_eq, Nat.le_zero.mp hle, pure_eq]

/-- When the window of a bracket holds the skew, and how wide it is when the
search is done. -/
theorem window_of_epochBracket {at_ : UInt64} {end_ left : Nat} {window : Nat × Nat}
    (hat : at_.toNat ≤ end_)
    (hb : EpochBracket (search lowerMiddle (goodEpoch at_) left 0 (end_ / mockEpochIcounts))
      (end_ / mockEpochIcounts) end_ window) :
    window.2 ≤ end_ ∧
      (window.1 ≤ at_.toNat ∧ at_.toNat ≤ window.2 ↔
        UpperSettled (end_ / mockEpochIcounts) (at_.toNat / mockEpochIcounts) left) ∧
      ((search lowerMiddle (goodEpoch at_) left 0 (end_ / mockEpochIcounts)).size = 0 →
        (window.1 ≤ at_.toNat ∧ at_.toNat ≤ window.2) ∧ window.2 < window.1 + 2 ^ 13) := by
  have hgood : ∀ i, goodEpoch at_ i = true ↔ i < at_.toNat / mockEpochIcounts :=
    fun i => decide_eq_true_iff
  have hlast : at_.toNat / mockEpochIcounts ≤ 0 + end_ / mockEpochIcounts := by
    rw [Nat.zero_add]
    exact Nat.div_le_div_right hat
  have hbracket := search_bracket lowerMiddle_lt hgood left (Nat.zero_le _) hlast
  have hsettled := search_upperSettled_iff hgood left (Nat.zero_le _) hlast
  rw [Nat.sub_zero] at hsettled
  rw [← hsettled]
  generalize search lowerMiddle (goodEpoch at_) left 0 (end_ / mockEpochIcounts) = b at *
  unfold EpochBracket at hb
  unfold Bracket.last mockEpochIcounts at *
  rcases hb with ⟨hb, rfl⟩ | ⟨hb, rfl⟩
  · simp only
    omega
  · simp only
    omega

section Skewed

variable {blake3 : Bytes → Bytes32} {spec : SegmentSpec} {at_ : UInt64} {segment : DhilogSegment}
  {hash : StateHash} (hw : SkewedAs blake3 spec at_ segment hash)
  (hfree : CollisionFree blake3 (spec.seed blake3) spec.endIcount.toNat spec.timeline
    (spec.recorded at_))
  (hchange : fnvFold (register (before at_.toNat spec.timeline)) skewFold ≠
    register (before at_.toNat spec.timeline))
  {index : UInt32} {runIndex : Nat}

include hw hfree hchange

variable (index runIndex) in
/-- The chain replayed to a boundary is the recorded one exactly at the good
epochs. -/
theorem probe_epoch {i : Nat} (hi : i < spec.endIcount.toNat / mockEpochIcounts) :
    ∃ probe, simTo blake3 (.recordedSkew index at_) segment ((i + 1) * mockEpochIcounts)
        (.replayed runIndex) index = .ok probe ∧
      (probe.chain = chainAfter blake3 (spec.seed blake3) (spec.recorded at_) (i + 1) ↔
        goodEpoch at_ i = true) := by
  have hle : (i + 1) * mockEpochIcounts ≤ spec.endIcount.toNat :=
    (Nat.le_div_iff_mul_le (by decide)).mp hi
  have hchain : chainAfter blake3 (spec.seed blake3) spec.timeline (i + 1) =
      chainAfter blake3 (spec.seed blake3) (spec.recorded at_) (i + 1) ↔
        (i + 1) * mockEpochIcounts ≤ at_.toNat :=
    chainAfter_eq_iff hw.valid.timed hchange hfree hle
  refine ⟨_, simTo_replayed hw hle, ?_⟩
  rw [chain_guestAt, Nat.mul_div_cancel _ (by decide), hchain, goodEpoch, decide_eq_true_iff,
    ← Nat.le_div_iff_mul_le (by decide)]
  exact Nat.succ_le_iff

variable (index runIndex) in
/-- The loop is the search that probes the lower middle. -/
theorem epochLoop_search {fuel : Nat} :
    ∀ (first size : Nat) (st : EpochSearch) (s : HvState (MockHypervisor blake3)),
      size ≤ fuel → st.a = first → st.b + 1 = first + size →
      first + size ≤ spec.endIcount.toNat / mockEpochIcounts →
      EpochsNarrowed (spec.endIcount.toNat / mockEpochIcounts) spec.endIcount.toNat first
        (first + size) st →
      ∃ st' s', epochLoop (.recordedSkew index at_) segment (.replayed runIndex) index
          (epochsOf blake3 (spec.seed blake3) (spec.recorded at_)
            (spec.endIcount.toNat / mockEpochIcounts)) fuel st s = (.ok st', s') ∧
        LeavesRuns (search lowerMiddle (goodEpoch at_) s.budget.remaining first size).left s s' ∧
        EpochsNarrowed (spec.endIcount.toNat / mockEpochIcounts) spec.endIcount.toNat
          (search lowerMiddle (goodEpoch at_) s.budget.remaining first size).first
          (search lowerMiddle (goodEpoch at_) s.budget.remaining first size).last st' := by
  induction fuel with
  | zero =>
      intro first size st s hfuel _ _ _ hst
      obtain rfl := Nat.le_zero.mp hfuel
      rw [search_zero]
      exact ⟨st, s, rfl, leavesRuns_self s, hst⟩
  | succ fuel ih =>
      intro first size st s hfuel ha hb hn hst
      by_cases hsize : size = 0
      · subst hsize
        rw [search_zero, epochLoop, if_pos (by omega)]
        exact ⟨st, s, rfl, leavesRuns_self s, hst⟩
      · rw [epochLoop, if_neg (by omega)]
        cases hleft : s.budget.remaining with
        | zero =>
            rw [Proc.bind_apply_ok (spendRun_of_zero hleft)]
            exact ⟨st, s, rfl, ⟨rfl, hleft⟩, hst⟩
        | succ left =>
            obtain ⟨run, s₁, hspend, hs₁⟩ := spendRun_of_succ hleft
            have hmid : (st.a + st.b) / 2 = first + lowerMiddle size := by
              unfold lowerMiddle
              omega
            have hlt := lowerMiddle_lt size (Nat.pos_of_ne_zero hsize)
            have hmidn : first + lowerMiddle size < spec.endIcount.toNat / mockEpochIcounts := by
              omega
            obtain ⟨probe, hprobe, hgood⟩ :=
              probe_epoch hw hfree hchange index runIndex hmidn
            rw [Proc.bind_apply_ok hspend, search, if_neg hsize]
            simp only [hmid]
            rw [getElem?_epochsOf hmidn, Proc.lift_bind_apply (expect_some _),
              Proc.lift_bind_apply hprobe]
            have hends : (first + lowerMiddle size + 1) * mockEpochIcounts ≤
                spec.endIcount.toNat := (Nat.le_div_iff_mul_le (by decide)).mp hmidn
            by_cases hprobed : goodEpoch at_ (first + lowerMiddle size) = true
            · -- a good probe: the search goes on above it
              simp only [if_pos (hgood.mpr hprobed), if_pos hprobed]
              have hsum : first + lowerMiddle size + 1 + (size - lowerMiddle size - 1) =
                  first + size := by omega
              obtain ⟨st', s', hloop, hleaves, hnarrowed⟩ :=
                ih (first + lowerMiddle size + 1) (size - lowerMiddle size - 1)
                  { st with
                    lo := max st.lo ((first + lowerMiddle size + 1) * mockEpochIcounts)
                    a := first + lowerMiddle size + 1 } s₁ (by omega) rfl
                  (hb.trans hsum.symm) (hsum ▸ hn)
                  (hsum ▸ hst.good (Nat.le_add_right _ _) _)
              rw [hs₁.remaining] at hleaves hnarrowed
              exact ⟨st', s', hloop, hs₁.trans hleaves, hnarrowed⟩
            · -- a bad probe: it goes on below it
              simp only [if_neg fun hchain => hprobed (hgood.mp hchain), if_neg hprobed]
              have hnarrowed := hst.bad (Nat.add_lt_add_left hlt first) hmidn hends
              by_cases hzero : first + lowerMiddle size = 0
              · obtain ⟨hfirst, hlow⟩ := Nat.add_eq_zero_iff.mp hzero
                rw [if_pos hzero, hlow, search_zero]
                refine ⟨_, s₁, rfl, hs₁, ?_⟩
                have h := hnarrowed st.b
                rw [hlow] at h
                exact h
              · rw [if_neg hzero]
                obtain ⟨st', s', hloop, hleaves, hnarrowed⟩ :=
                  ih first (lowerMiddle size)
                    { st with
                      hi := min st.hi ((first + lowerMiddle size + 1) * mockEpochIcounts)
                      firstBad := some (first + lowerMiddle size)
                      b := first + lowerMiddle size - 1 } s₁ (by omega) ha
                    (Nat.sub_add_cancel (Nat.pos_of_ne_zero hzero)) hmidn.le (hnarrowed _)
                rw [hs₁.remaining] at hleaves hnarrowed
                exact ⟨st', s', hloop, hs₁.trans hleaves, hnarrowed⟩

variable (index runIndex) in
theorem epochWindow_search (s : HvState (MockHypervisor blake3)) :
    ∃ window s', epochWindow (.recordedSkew index at_) segment (.replayed runIndex) index
        (epochsOf blake3 (spec.seed blake3) (spec.recorded at_)
          (spec.endIcount.toNat / mockEpochIcounts)) s = (.ok window, s') ∧
      LeavesRuns (search lowerMiddle (goodEpoch at_) s.budget.remaining 0
        (spec.endIcount.toNat / mockEpochIcounts)).left s s' ∧
      EpochBracket (search lowerMiddle (goodEpoch at_) s.budget.remaining 0
        (spec.endIcount.toNat / mockEpochIcounts)) (spec.endIcount.toNat / mockEpochIcounts)
        spec.endIcount.toNat window := by
  by_cases hn : spec.endIcount.toNat / mockEpochIcounts = 0
  · have hempty : (epochsOf blake3 (spec.seed blake3) (spec.recorded at_)
        (spec.endIcount.toNat / mockEpochIcounts)).isEmpty = true := by
      rw [List.isEmpty_iff_length_eq_zero, length_epochsOf, hn]
    rw [epochWindow, if_pos hempty, hw.endIcount, hn, search_zero]
    refine ⟨_, s, rfl, leavesRuns_self s, .inl ⟨rfl, ?_⟩⟩
    rw [Nat.zero_mul]
  · have hnonempty : ¬(epochsOf blake3 (spec.seed blake3) (spec.recorded at_)
        (spec.endIcount.toNat / mockEpochIcounts)).isEmpty = true := by
      rw [List.isEmpty_iff_length_eq_zero, length_epochsOf]
      exact hn
    obtain ⟨st, s', hloop, hleaves, hnarrowed⟩ :=
      epochLoop_search hw hfree hchange index runIndex 0
        (spec.endIcount.toNat / mockEpochIcounts)
        { a := 0
          b := spec.endIcount.toNat / mockEpochIcounts - 1
          lo := 0
          hi := spec.endIcount.toNat
          firstBad := none } s (le_refl _) rfl
        ((Nat.sub_add_cancel (Nat.pos_of_ne_zero hn)).trans (Nat.zero_add _).symm)
        (Nat.zero_add _).le
        ⟨(Nat.zero_mul _).symm, .inl ⟨Nat.zero_add _, rfl, rfl⟩⟩
    obtain ⟨window, hwindow, hcases⟩ := window_of_narrowed hnarrowed (Nat.le_add_right _ _)
    rw [epochWindow, if_neg hnonempty, hw.endIcount, length_epochsOf,
      Proc.bind_apply_ok hloop, Proc.lift_apply, hwindow]
    exact ⟨window, s', rfl, hleaves, hcases⟩

/-! ### The search over icounts -/

def goodIcount (at_ : UInt64) (i : Nat) : Bool := i < at_.toNat

variable (index runIndex) in
theorem agreesAt_eq {stop : Nat} (hstop : stop ≤ spec.endIcount.toNat) :
    agreesAt (.recordedSkew index at_) segment (.replayed runIndex) index blake3 stop =
      .ok (goodIcount at_ stop) := by
  have hiff : (guestAt blake3 (spec.seed blake3) spec.timeline stop).chainValue blake3 =
      (guestAt blake3 (spec.seed blake3) (spec.recorded at_) stop).chainValue blake3 ↔
        stop < at_.toNat := chainValue_eq_iff hw.valid.timed hchange hfree hstop
  rw [agreesAt, simTo_replayed hw hstop, ok_bind, simTo_recorded hw hstop, ok_bind, pure_eq,
    goodIcount, decide_eq_decide.mpr hiff]

structure IcountsNarrowed (at_ : Nat) (st : IcountSearch) : Prop where
  lo_le : st.lo ≤ at_
  hi_eq : st.hi = st.b
  a_le : st.a ≤ at_
  le_b : at_ ≤ st.b

variable (index runIndex) in
/-- The loop is the search that probes the middle. -/
theorem narrowLoop_search (fuel : Nat) :
    ∀ (first size : Nat) (st : IcountSearch) (s : HvState (MockHypervisor blake3)),
      size < 2 ^ fuel → st.a = first → st.b = first + size → st.b ≤ spec.endIcount.toNat →
      IcountsNarrowed at_.toNat st →
      ∃ st' s', narrowLoop (.recordedSkew index at_) segment (.replayed runIndex) index fuel st s =
          (.ok st', s') ∧
        LeavesRuns (search (· / 2) (goodIcount at_) s.budget.remaining first size).left s s' ∧
        IcountsNarrowed at_.toNat st' ∧ st'.b ≤ st.b ∧
        st'.b - st'.a = (search (· / 2) (goodIcount at_) s.budget.remaining first size).size := by
  induction fuel with
  | zero =>
      intro first size st s hfuel ha hb _ hst
      obtain rfl : size = 0 := by omega
      rw [search_zero]
      exact ⟨st, s, rfl, leavesRuns_self s, hst, le_refl _, show st.b - st.a = 0 by omega⟩
  | succ fuel ih =>
      intro first size st s hfuel ha hb hend hst
      by_cases hsize : size = 0
      · subst hsize
        rw [search_zero, narrowLoop, if_neg (by omega)]
        exact ⟨st, s, rfl, leavesRuns_self s, hst, le_refl _, show st.b - st.a = 0 by omega⟩
      · rw [narrowLoop, if_pos (by omega)]
        cases hleft : s.budget.remaining with
        | zero =>
            rw [Proc.bind_apply_ok (spendRun_of_zero hleft)]
            exact ⟨st, s, rfl, ⟨rfl, hleft⟩, hst, le_refl _, show st.b - st.a = size by omega⟩
        | succ left =>
            obtain ⟨run, s₁, hspend, hs₁⟩ := spendRun_of_succ hleft
            have hmid : st.a + (st.b - st.a) / 2 = first + size / 2 := by omega
            have hmidEnd : first + size / 2 ≤ spec.endIcount.toNat := by omega
            have hpow : 2 ^ (fuel + 1) = 2 * 2 ^ fuel := by ring
            rw [Proc.bind_apply_ok hspend, search, if_neg hsize]
            simp only [hmid]
            rw [Proc.lift_bind_apply (agreesAt_eq hw hfree hchange index runIndex hmidEnd)]
            by_cases hprobed : goodIcount at_ (first + size / 2) = true
            · -- the two sides agree there: the skew is past the middle
              have hlt : first + size / 2 < at_.toNat := of_decide_eq_true hprobed
              simp only [if_pos hprobed]
              obtain ⟨st', s', hloop, hleaves, hnarrowed, hle, hwidth⟩ :=
                ih (first + size / 2 + 1) (size - size / 2 - 1)
                  { st with a := first + size / 2 + 1, lo := first + size / 2 } s₁ (by omega) rfl
                  (by simp only; omega) hend ⟨hlt.le, hst.hi_eq, hlt, hst.le_b⟩
              rw [hs₁.remaining] at hleaves hwidth
              exact ⟨st', s', hloop, hs₁.trans hleaves, hnarrowed, hle, hwidth⟩
            · -- they do not: it is there or before it
              have hge : at_.toNat ≤ first + size / 2 := not_lt.mp fun hlt =>
                hprobed (decide_eq_true hlt)
              simp only [if_neg hprobed]
              obtain ⟨st', s', hloop, hleaves, hnarrowed, hle, hwidth⟩ :=
                ih first (size / 2) { st with b := first + size / 2, hi := first + size / 2 } s₁
                  (by omega) ha rfl hmidEnd ⟨hst.lo_le, rfl, hst.a_le, hge⟩
              rw [hs₁.remaining] at hleaves hwidth
              refine ⟨st', s', hloop, hs₁.trans hleaves, hnarrowed, hle.trans ?_, hwidth⟩
              simp only
              omega

variable (index runIndex) in
/-- The last probe makes a window of one icount exact. -/
theorem lastProbe_spec {st : IcountSearch} (s : HvState (MockHypervisor blake3))
    (hend : st.b ≤ spec.endIcount.toNat) (hst : IcountsNarrowed at_.toNat st) :
    ∃ st' exact_ s', lastProbe (.recordedSkew index at_) segment (.replayed runIndex) index st s =
        (.ok (st', exact_), s') ∧
      s'.hv.defect = s.hv.defect ∧ s'.budget.remaining ≤ s.budget.remaining ∧
      s.budget.remaining ≤ s'.budget.remaining + 1 ∧ st'.lo ≤ at_.toNat ∧
      at_.toNat ≤ st'.hi ∧ st'.hi ≤ spec.endIcount.toNat ∧ exact_.getD st'.hi = st'.hi ∧
      (s'.budget.remaining ≠ 0 → st.a = st.b → st'.lo = at_.toNat ∧ st'.hi = at_.toNat) := by
  have hhi : at_.toNat ≤ st.hi := hst.hi_eq ▸ hst.le_b
  have hhiEnd : st.hi ≤ spec.endIcount.toNat := hst.hi_eq ▸ hend
  rw [lastProbe]
  by_cases hab : st.a = st.b
  · rw [if_pos hab]
    cases hleft : s.budget.remaining with
    | zero =>
        rw [Proc.bind_apply_ok (spendRun_of_zero hleft)]
        exact ⟨st, none, s, rfl, rfl, hleft.le, by omega, hst.lo_le, hhi, hhiEnd, rfl,
          fun hne => absurd hleft hne⟩
    | succ left =>
        obtain ⟨run, s₁, hspend, hs₁⟩ := spendRun_of_succ hleft
        have heq : st.a = at_.toNat := le_antisymm hst.a_le (hab ▸ hst.le_b)
        have hbad : ¬goodIcount at_ st.a = true := by
          rw [goodIcount, heq, decide_eq_true_iff]
          exact lt_irrefl _
        have haEnd : st.a ≤ spec.endIcount.toNat := hab ▸ hend
        rw [Proc.bind_apply_ok hspend]
        simp only
        rw [Proc.lift_bind_apply (agreesAt_eq hw hfree hchange index runIndex haEnd)]
        simp only [if_neg hbad]
        exact ⟨_, _, s₁, rfl, hs₁.defect, by rw [hs₁.remaining]; exact Nat.le_succ left,
          by rw [hs₁.remaining], heq.le, heq.ge, haEnd, rfl, fun _ _ => ⟨heq, heq⟩⟩
  · rw [if_neg hab]
    exact ⟨st, none, s, rfl, rfl, le_refl _, Nat.le_succ _, hst.lo_le, hhi, hhiEnd, rfl,
      fun _ h => absurd h hab⟩

variable (index runIndex) in
/-- Native bisection, whatever it has left to spend. -/
theorem nativeWindow_spec (s : HvState (MockHypervisor blake3)) :
    ∃ window stop s', nativeWindow (.recordedSkew index at_) segment (.replayed runIndex) index
        ((spec.recordList blake3).map framed) s = (.ok (window, stop), s') ∧
      s'.hv.defect = s.hv.defect ∧ stop ≤ spec.endIcount.toNat ∧
      (window.1 ≤ at_.toNat ∧ at_.toNat ≤ window.2 ↔
        UpperSettled (spec.endIcount.toNat / mockEpochIcounts) (at_.toNat / mockEpochIcounts)
          s.budget.remaining) ∧
      (s'.budget.remaining ≠ 0 → window = (at_.toNat, at_.toNat)) ∧
      (spec.endIcount.toNat < 2 ^ 40 → 43 ≤ s.budget.remaining → s'.budget.remaining ≠ 0) := by
  obtain ⟨window, s₁, hepochs, hs₁, hbracket⟩ :=
    epochWindow_search hw hfree hchange index runIndex s
  rw [nativeWindow, Proc.lift_bind_apply (hw.recordedEpochs),
    Proc.bind_apply_ok hepochs]
  have hat := UInt64.le_iff_toNat_le.mp (hw.valid.skew_le at_ hw.skewAt_eq)
  obtain ⟨hwinEnd, hholds, hdone⟩ := window_of_epochBracket hat hbracket
  have hspent : spec.endIcount.toNat < 2 ^ 40 → 43 ≤ s.budget.remaining →
      15 ≤ s₁.budget.remaining := by
    intro hend hruns
    have hn : spec.endIcount.toNat / mockEpochIcounts < 2 ^ 28 := by
      unfold mockEpochIcounts
      omega
    have hfast := search_fast lowerMiddle (goodEpoch at_) lowerMiddle_le_half
      sub_lowerMiddle_le_half 0 hn (show 28 ≤ s.budget.remaining by omega)
    rw [hs₁.remaining]
    omega
  by_cases hleft : s₁.budget.remaining = 0
  · -- nothing is left to narrow the window with
    refine ⟨window, window.2, s₁, ?_, hs₁.defect, hwinEnd, hholds, fun h => absurd hleft h, ?_⟩
    · simp only
      rw [Proc.bind_apply_ok (narrowLoop_of_zero hleft),
        Proc.bind_apply_ok (lastProbe_of_zero hleft)]
      rfl
    · intro hend hruns
      have hleast := hspent hend hruns
      omega
  · -- the epochs are settled, and the window holds the skew
    rw [hs₁.remaining] at hleft
    obtain ⟨hin, hwide⟩ := hdone (search_done hleft)
    obtain ⟨st, s₂, hnarrow, hs₂, hnarrowed, hbEnd, hwidth⟩ :=
      narrowLoop_search hw hfree hchange index runIndex 64 window.1 (window.2 - window.1)
        { a := window.1, b := window.2, lo := window.1, hi := window.2 } s₁
        (by omega) rfl (by simp only; omega) hwinEnd ⟨hin.1, rfl, hin.1, hin.2⟩
    obtain ⟨st', exact_, s₃, hprobe, hdefect, hle, hge, hlo, hhi, hhiEnd, hgetD, hexact⟩ :=
      lastProbe_spec hw hfree hchange index runIndex s₂ (hbEnd.trans hwinEnd) hnarrowed
    refine ⟨(st'.lo, st'.hi), exact_.getD st'.hi, s₃, ?_,
      (hdefect.trans hs₂.defect).trans hs₁.defect, hgetD.trans_le hhiEnd,
      ⟨fun _ => hholds.mp hin, fun _ => ⟨hlo, hhi⟩⟩, ?_, ?_⟩
    · simp only
      rw [Proc.bind_apply_ok hnarrow, Proc.bind_apply_ok hprobe]
      rfl
    · intro hne
      have hne₂ : s₂.budget.remaining ≠ 0 := by omega
      rw [hs₂.remaining] at hne₂
      rw [search_done hne₂] at hwidth
      have hab : st.a = st.b := by
        have hale := hnarrowed.a_le.trans hnarrowed.le_b
        omega
      obtain ⟨hloE, hhiE⟩ := hexact hne hab
      rw [hloE, hhiE]
    · intro hend hruns
      have hleast := hspent hend hruns
      have hfast := search_fast (· / 2) (goodIcount at_) (fun m => le_refl _)
        (fun m => by omega) window.1 (show window.2 - window.1 < 2 ^ 13 by omega)
        (show 13 ≤ s₁.budget.remaining by omega)
      have hleaves := hs₂.remaining
      omega

end Skewed

end ReplayRenderer
