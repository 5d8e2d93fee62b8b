import ReplayRenderer.Verify.Budget
import ReplayRenderer.Verify.Replay

/-!
Replays that do not panic. Of a segment that the validator accepts every
simulation up to its end is the guest of a timeline, and the searches of a
native bisection stay inside the epochs they were given and the segment; so a
call returns an outcome or a typed fault. The one thing the validator does not
check is that the end can be stepped to: the guest computes the boundary after
it, which in the last epoch is no 64-bit number.
-/

namespace ReplayRenderer

open Lib Lib.Outcome

section Total

variable {blake3 : Bytes → Bytes32} {segment : DhilogSegment} {rs : List Record}
  (ha : Applies segment rs) (defect : InjectedDefect) (side : Side) (segmentIndex : UInt32)

include ha

/-! ### The probes -/

variable (blake3) in
theorem Applies.agreesAt {stop : Nat} (hstop : stop ≤ segment.header.endIcount.toNat) :
    ∃ agrees, ReplayRenderer.agreesAt defect segment side segmentIndex blake3 stop = .ok agrees := by
  rw [ReplayRenderer.agreesAt, ha.simTo defect side segmentIndex hstop, ok_bind,
    ha.simTo defect .recorded segmentIndex hstop, ok_bind]
  exact ⟨_, rfl⟩

structure EpochSearch.Within (epochs : List RecordedEpoch) (end_ : Nat) (st : EpochSearch) :
    Prop where
  b_lt : st.b < epochs.length
  hi_le : st.hi ≤ end_
  bad_lt : ∀ bad ∈ st.firstBad, bad < epochs.length

section Epochs

variable {epochs : List RecordedEpoch}
  (hepochs : ∀ epoch ∈ epochs, epoch.icount ≤ segment.header.endIcount.toNat)

include hepochs

theorem Applies.epochLoop (fuel : Nat) :
    ∀ (st : EpochSearch) (s : HvState (MockHypervisor blake3)),
      st.Within epochs segment.header.endIcount.toNat →
      ∃ st' s', ReplayRenderer.epochLoop defect segment side segmentIndex epochs fuel st s =
          (.ok st', s') ∧ st'.Within epochs segment.header.endIcount.toNat := by
  induction fuel with
  | zero => exact fun st s hst => ⟨st, s, rfl, hst⟩
  | succ fuel ih =>
      intro st s hst
      rw [ReplayRenderer.epochLoop]
      by_cases hdone : st.b < st.a
      · rw [if_pos hdone]
        exact ⟨st, s, rfl, hst⟩
      · rw [if_neg hdone]
        cases hleft : s.budget.remaining with
        | zero =>
            rw [Proc.bind_apply_ok (spendRun_of_zero hleft)]
            exact ⟨st, s, rfl, hst⟩
        | succ left =>
            obtain ⟨run, s₁, hspend, -⟩ := spendRun_of_succ hleft
            have hmid : (st.a + st.b) / 2 < epochs.length := by
              have hb := hst.b_lt
              omega
            have hepoch := List.getElem?_eq_getElem hmid
            rw [Proc.bind_apply_ok hspend]
            simp only
            rw [hepoch, Proc.lift_bind_apply (expect_some _), Proc.lift_bind_apply
              (ha.simTo defect side segmentIndex (hepochs _ (List.getElem_mem hmid)))]
            have hhi : ∀ icount, min st.hi icount ≤ segment.header.endIcount.toNat := fun icount =>
              (min_le_left _ _).trans hst.hi_le
            have hbad : ∀ bad ∈ some ((st.a + st.b) / 2), bad < epochs.length := by
              rintro _ ⟨⟩
              exact hmid
            split
            · exact ih _ s₁ ⟨hst.b_lt, hst.hi_le, hst.bad_lt⟩
            · split
              · exact ⟨_, s₁, rfl, hst.b_lt, hhi _, hbad⟩
              · exact ih _ s₁ ⟨lt_of_le_of_lt (Nat.sub_le _ _) hmid, hhi _, hbad⟩

omit ha hepochs in
theorem EpochSearch.Within.window {end_ : Nat} {st : EpochSearch} (hst : st.Within epochs end_) :
    ∃ window, (st.window epochs : Outcome HvFault _) = .ok window ∧ window.2 ≤ end_ := by
  rw [EpochSearch.window]
  cases hfirst : st.firstBad with
  | none => exact ⟨_, rfl, hst.hi_le⟩
  | some bad =>
      have hbad := hst.bad_lt bad hfirst
      have hle : ∀ icount, min st.hi icount ≤ end_ := fun icount =>
        (min_le_left _ _).trans hst.hi_le
      simp only [List.getElem?_eq_getElem hbad, expect_some, ok_bind]
      split
      · have hpred : bad - 1 < epochs.length := lt_of_le_of_lt (Nat.sub_le _ _) hbad
        rw [List.getElem?_eq_getElem hpred, expect_some, ok_bind]
        exact ⟨_, rfl, hle _⟩
      · exact ⟨_, rfl, hle _⟩

theorem Applies.epochWindow (s : HvState (MockHypervisor blake3)) :
    ∃ window s', ReplayRenderer.epochWindow defect segment side segmentIndex epochs s =
        (.ok window, s') ∧ window.2 ≤ segment.header.endIcount.toNat := by
  rw [ReplayRenderer.epochWindow]
  by_cases hempty : epochs.isEmpty = true
  · rw [if_pos hempty]
    exact ⟨_, s, rfl, le_refl _⟩
  · have hpos : 0 < epochs.length := by
      rw [List.isEmpty_iff_length_eq_zero] at hempty
      exact Nat.pos_of_ne_zero hempty
    obtain ⟨st, s₁, hloop, hst⟩ := ha.epochLoop defect side segmentIndex hepochs epochs.length
      { a := 0
        b := epochs.length - 1
        lo := 0
        hi := segment.header.endIcount.toNat
        firstBad := none } s ⟨Nat.sub_lt hpos Nat.one_pos, le_refl _, by simp⟩
    obtain ⟨window, hwindow, hle⟩ := hst.window
    rw [if_neg hempty, Proc.bind_apply_ok hloop, Proc.lift_apply, hwindow]
    exact ⟨window, s₁, rfl, hle⟩

end Epochs

structure IcountSearch.Within (end_ : Nat) (st : IcountSearch) : Prop where
  b_le : st.b ≤ end_
  hi_le : st.hi ≤ end_

theorem Applies.narrowLoop (fuel : Nat) :
    ∀ (st : IcountSearch) (s : HvState (MockHypervisor blake3)),
      st.Within segment.header.endIcount.toNat →
      ∃ st' s', ReplayRenderer.narrowLoop defect segment side segmentIndex fuel st s =
          (.ok st', s') ∧ st'.Within segment.header.endIcount.toNat := by
  induction fuel with
  | zero => exact fun st s hst => ⟨st, s, rfl, hst⟩
  | succ fuel ih =>
      intro st s hst
      rw [ReplayRenderer.narrowLoop]
      by_cases hlt : st.a < st.b
      · rw [if_pos hlt]
        cases hleft : s.budget.remaining with
        | zero =>
            rw [Proc.bind_apply_ok (spendRun_of_zero hleft)]
            exact ⟨st, s, rfl, hst⟩
        | succ left =>
            obtain ⟨run, s₁, hspend, -⟩ := spendRun_of_succ hleft
            have hmid : st.a + (st.b - st.a) / 2 ≤ segment.header.endIcount.toNat := by
              have hb := hst.b_le
              omega
            obtain ⟨agrees, hagrees⟩ := ha.agreesAt blake3 defect side segmentIndex hmid
            rw [Proc.bind_apply_ok hspend]
            simp only
            rw [Proc.lift_bind_apply hagrees]
            split
            · exact ih _ s₁ ⟨hst.b_le, hst.hi_le⟩
            · exact ih _ s₁ ⟨hmid, hmid⟩
      · rw [if_neg hlt]
        exact ⟨st, s, rfl, hst⟩

theorem Applies.lastProbe {st : IcountSearch} (s : HvState (MockHypervisor blake3))
    (hst : st.Within segment.header.endIcount.toNat) :
    ∃ st' exact_ s', ReplayRenderer.lastProbe defect segment side segmentIndex st s =
        (.ok (st', exact_), s') ∧ exact_.getD st'.hi ≤ segment.header.endIcount.toNat := by
  rw [ReplayRenderer.lastProbe]
  by_cases heq : st.a = st.b
  · rw [if_pos heq]
    cases hleft : s.budget.remaining with
    | zero =>
        rw [Proc.bind_apply_ok (spendRun_of_zero hleft)]
        exact ⟨st, none, s, rfl, hst.hi_le⟩
    | succ left =>
        obtain ⟨run, s₁, hspend, -⟩ := spendRun_of_succ hleft
        have hle : st.a ≤ segment.header.endIcount.toNat := heq ▸ hst.b_le
        obtain ⟨agrees, hagrees⟩ := ha.agreesAt blake3 defect side segmentIndex hle
        rw [Proc.bind_apply_ok hspend]
        simp only
        rw [Proc.lift_bind_apply hagrees]
        split
        · exact ⟨st, none, s₁, rfl, hst.hi_le⟩
        · exact ⟨_, some st.a, s₁, rfl, hle⟩
  · rw [if_neg heq]
    exact ⟨st, none, s, rfl, hst.hi_le⟩

theorem Applies.nativeWindow (s : HvState (MockHypervisor blake3)) :
    ∃ window stop s', ReplayRenderer.nativeWindow defect segment side segmentIndex
        (rs.map framed) s = (.ok (window, stop), s') ∧
      stop ≤ segment.header.endIcount.toNat := by
  obtain ⟨epochs, hrecorded, hrs⟩ := exists_recordedEpochs (ε := HvFault) rs
  have hepochs : ∀ epoch ∈ epochs, epoch.icount ≤ segment.header.endIcount.toNat :=
    (forall_iff_of_forall₂ hrs fun r _ epoch hr => by rw [hr.2]).mp fun r hr =>
      ha.applicable.icount_le r (List.mem_filter.mp hr).1
  obtain ⟨window, s₁, hwindow, hle⟩ := ha.epochWindow defect side segmentIndex hepochs s
  obtain ⟨st, s₂, hnarrow, hst⟩ := ha.narrowLoop defect side segmentIndex 64
    { a := window.1, b := window.2, lo := window.1, hi := window.2 } s₁ ⟨hle, hle⟩
  obtain ⟨st', exact_, s₃, hprobe, hstop⟩ := ha.lastProbe defect side segmentIndex s₂ hst
  refine ⟨(st'.lo, st'.hi), exact_.getD st'.hi, s₃, ?_, hstop⟩
  rw [ReplayRenderer.nativeWindow, Proc.lift_bind_apply hrecorded, Proc.bind_apply_ok hwindow]
  simp only
  rw [Proc.bind_apply_ok hnarrow, Proc.bind_apply_ok hprobe]
  rfl

/-! ### The calls -/

variable (blake3) in
theorem Applies.diagnostics (window : Nat × Nat) (runIndex : Nat) (endStateHash : StateHash)
    {stop : Nat} (hstop : stop ≤ segment.header.endIcount.toNat) :
    ∃ d, ReplayRenderer.diagnostics blake3 defect segment window stop segmentIndex runIndex
        endStateHash = .ok d ∧ d.endStateHash = endStateHash ∧
      (d.icountLo, d.icountHi) = window := by
  rw [ReplayRenderer.diagnostics, ha.simTo defect .recorded segmentIndex hstop,
    ha.simTo defect (.replayed runIndex) segmentIndex hstop]
  exact ⟨_, rfl, rfl, rfl⟩

section Report

variable {opts : VerifyOpts} (runIndex : Nat) (s : HvState (MockHypervisor blake3))

variable (blake3) in
theorem Applies.endSim (index : UInt32) : ∃ endSim, ReplayRenderer.simTo blake3 defect segment
    segment.header.endIcount.toNat (.replayed runIndex) index = .ok endSim ∧
      endSim.chainValue blake3 =
        replayHash blake3 defect segment (.replayed runIndex) index rs :=
  ⟨_, ha.simTo defect (.replayed runIndex) index (le_refl _), rfl⟩

/-- Without native bisection the window is the whole segment, and no run is
spent on it. -/
theorem Applies.reportDivergence_whole (hopts : opts.bisectOnDivergence = false) :
    ∃ d, ReplayRenderer.reportDivergence defect segment opts runIndex (rs.map framed) s =
        (.ok (.diverged d), s) ∧
      d.endStateHash = replayHash blake3 defect segment (.replayed runIndex) opts.segmentIndex rs ∧
      (d.icountLo, d.icountHi) = (0, segment.header.endIcount.toNat) := by
  obtain ⟨endSim, hendSim, hend⟩ := ha.endSim blake3 defect runIndex opts.segmentIndex
  obtain ⟨d, hd, hdiagnosed⟩ := ha.diagnostics blake3 defect opts.segmentIndex
    (0, segment.header.endIcount.toNat) runIndex
    (replayHash blake3 defect segment (.replayed runIndex) opts.segmentIndex rs) (le_refl _)
  refine ⟨d, ?_, hdiagnosed⟩
  rw [ReplayRenderer.reportDivergence]
  simp only
  rw [Proc.lift_bind_apply hendSim, hend, if_pos hopts, Proc.lift_bind_apply hd]
  rfl

variable (opts) in
theorem Applies.reportDivergence :
    ∃ d s', ReplayRenderer.reportDivergence defect segment opts runIndex (rs.map framed) s =
        (.ok (.diverged d), s') ∧
      d.endStateHash = replayHash blake3 defect segment (.replayed runIndex) opts.segmentIndex rs := by
  by_cases hopts : opts.bisectOnDivergence = false
  · obtain ⟨d, hd, hhash, -⟩ := ha.reportDivergence_whole defect runIndex s hopts
    exact ⟨d, s, hd, hhash⟩
  · obtain ⟨endSim, hendSim, hend⟩ := ha.endSim blake3 defect runIndex opts.segmentIndex
    obtain ⟨window, stop, s', hnative, hstop⟩ :=
      ha.nativeWindow defect (.replayed runIndex) opts.segmentIndex s
    obtain ⟨d, hd, hhash, -⟩ := ha.diagnostics blake3 defect opts.segmentIndex window runIndex
      (replayHash blake3 defect segment (.replayed runIndex) opts.segmentIndex rs) hstop
    refine ⟨d, s', ?_, hhash⟩
    rw [ReplayRenderer.reportDivergence]
    simp only
    rw [Proc.lift_bind_apply hendSim, hend, if_neg hopts, Proc.bind_apply_ok hnative]
    simp only
    rw [Proc.lift_bind_apply hd]
    rfl

end Report

end Total

/-! ### Bounded segments -/

section Bounded

variable {blake3 : Bytes → Bytes32} {segment : DhilogSegment} {rs : List Record}

theorem nextBoundary_lt_iff {t : Nat} :
    (t / mockEpochIcounts + 1) * mockEpochIcounts < u64Bound ↔ t + mockEpochIcounts < 2 ^ 64 := by
  unfold mockEpochIcounts u64Bound
  omega

theorem SealedSegment.applies (hs : SealedSegment blake3 segment rs)
    (hend : segment.header.endIcount.toNat + mockEpochIcounts < 2 ^ 64) : Applies segment rs where
  records := hs.records_eq
  applicable := hs.applicable
  bound := nextBoundary_lt_iff.mpr hend

section Calls

variable {base : SnapshotRef}

theorem verifySegment_wrongBase (opts : VerifyOpts) (s : HvState (MockHypervisor blake3))
    (hbase : base ≠ segment.header.baseSnapshotId) :
    HypervisorReplay.verifySegment base segment opts s = (.err .baseMismatch, s) := by
  have hreject : (rejectIf (base ≠ segment.header.baseSnapshotId) .baseMismatch :
      Outcome HvFault Unit) = .err .baseMismatch := rejectIf_pos hbase
  change MockHypervisor.verifySegment base segment opts s = _
  rw [MockHypervisor.verifySegment]
  simp only
  rw [hreject]
  rfl

theorem verifySegment_noBudget (opts : VerifyOpts) (s : HvState (MockHypervisor blake3))
    (hbase : base = segment.header.baseSnapshotId) (hleft : s.budget.remaining = 0) :
    HypervisorReplay.verifySegment base segment opts s = (.err .noBudget, s) := by
  have hreject : (rejectIf (base ≠ segment.header.baseSnapshotId) .baseMismatch :
      Outcome HvFault Unit) = .ok () := rejectIf_neg (not_not.mpr hbase)
  change MockHypervisor.verifySegment base segment opts s = _
  rw [MockHypervisor.verifySegment]
  simp only
  rw [Proc.lift_bind_apply hreject, Proc.bind_apply_ok (spendRun_of_zero hleft)]
  rfl

variable {stop : Nat} {hv : MockHypervisor blake3} {budget : RunBudget}

theorem runToIcount_eq (hbase : base = segment.header.baseSnapshotId)
    (hstop : stop ≤ segment.header.endIcount.toNat) (hlt : budget.used < budget.maxRuns) :
    (HypervisorReplay.runToIcount base segment stop (hv, budget)).1 =
      simTo blake3 hv.defect segment stop (.replayed hv.runs) 0 >>= fun sim =>
        pure (sim.chainValue blake3) := by
  have hreject : (rejectIf (base ≠ segment.header.baseSnapshotId) .baseMismatch :
      Outcome HvFault Unit) = .ok () := rejectIf_neg (not_not.mpr hbase)
  have hpast : (rejectIf (segment.header.endIcount.toNat < stop)
      (.probePastEnd stop segment.header.endIcount.toNat) : Outcome HvFault Unit) = .ok () :=
    rejectIf_neg (not_lt.mpr hstop)
  have hrun : MockHypervisor.runToIcount base segment stop ⟨hv, budget, []⟩ =
      (Proc.lift (simTo blake3 hv.defect segment stop (.replayed hv.runs) 0) >>= fun sim =>
        pure (sim.chainValue blake3)) (HvState.afterRun ⟨hv, budget, []⟩ hlt []) := by
    rw [MockHypervisor.runToIcount, Proc.lift_bind_apply hreject, Proc.lift_bind_apply hpast,
      Proc.bind_apply_ok (spendRun_of_lt hlt)]
    rfl
  change (MockHypervisor.runToIcount base segment stop ⟨hv, budget, []⟩).1 = _
  rw [hrun]
  cases simTo blake3 hv.defect segment stop (.replayed hv.runs) 0 <;> rfl

variable (hv) in
theorem runToIcount_rejects (h : base ≠ segment.header.baseSnapshotId ∨
    segment.header.endIcount.toNat < stop ∨ budget.maxRuns ≤ budget.used) :
    ∃ e, (HypervisorReplay.runToIcount base segment stop (hv, budget)).1 = .err e := by
  change ∃ e, (MockHypervisor.runToIcount base segment stop ⟨hv, budget, []⟩).1 = .err e
  rw [MockHypervisor.runToIcount]
  by_cases hbase : base ≠ segment.header.baseSnapshotId
  · rw [rejectIf_pos hbase]
    exact ⟨_, rfl⟩
  · rw [Proc.lift_bind_apply (rejectIf_neg hbase)]
    by_cases hstop : segment.header.endIcount.toNat < stop
    · rw [rejectIf_pos hstop]
      exact ⟨_, rfl⟩
    · have hle := (h.resolve_left hbase).resolve_left hstop
      have hleft : budget.remaining = 0 := Nat.sub_eq_zero_of_le hle
      rw [Proc.lift_bind_apply (rejectIf_neg hstop),
        Proc.bind_apply_ok (spendRun_of_zero (s := ⟨hv, budget, []⟩) hleft)]
      exact ⟨_, rfl⟩

end Calls

/-- A call to verify is turned away, or comes to an end. -/
theorem verifySegment_ne_panic (ha : Applies segment rs) (base : SnapshotRef) (opts : VerifyOpts)
    (s : HvState (MockHypervisor blake3)) :
    (HypervisorReplay.verifySegment base segment opts s).1 ≠ .panic := by
  by_cases hbase : base = segment.header.baseSnapshotId
  · by_cases hlt : s.budget.used < s.budget.maxRuns
    · subst hbase
      obtain ⟨epochs, hepochs, -⟩ := exists_recordedEpochs (ε := HvFault) rs
      have hcall := ha.verifySegment hepochs opts s hlt
      generalize HypervisorReplay.verifySegment segment.header.baseSnapshotId segment opts s =
        result at hcall ⊢
      cases hcall with
      | verified => simp
      | diverged =>
          obtain ⟨d, s', hreport, -⟩ := ha.reportDivergence s.hv.defect opts s.hv.runs _
          rw [hreport]
          simp
      | malformed => simp
    · have hleft : s.budget.remaining = 0 := Nat.sub_eq_zero_of_le (not_lt.mp hlt)
      rw [verifySegment_noBudget opts s hbase hleft]
      simp
  · rw [verifySegment_wrongBase opts s hbase]
    simp

theorem runToIcount_ne_panic (ha : Applies segment rs) (base : SnapshotRef) (stop : Nat)
    (hv : MockHypervisor blake3) (budget : RunBudget) :
    (HypervisorReplay.runToIcount base segment stop (hv, budget)).1 ≠ .panic := by
  by_cases hreject : base ≠ segment.header.baseSnapshotId ∨
      segment.header.endIcount.toNat < stop ∨ budget.maxRuns ≤ budget.used
  · obtain ⟨e, he⟩ := runToIcount_rejects hv hreject
    rw [he]
    simp
  · simp only [not_or, not_not, not_lt, not_le] at hreject
    obtain ⟨hbase, hstop, hlt⟩ := hreject
    rw [runToIcount_eq hbase hstop hlt, ha.simTo hv.defect (.replayed hv.runs) 0 hstop]
    simp

end Bounded

/-! ### Segments that are not -/

section Unbounded

variable {blake3 : Bytes → Bytes32} {segment : DhilogSegment} {rs : List Record}

theorem applyRecord_ne_err {e : HvFault} {sim : GuestSim} {r : Record}
    (hr : r.isAux = false → r.kind = kindPadSet ∨ r.kind = kindDevEvent ∨ r.kind = kindNetRx) :
    applyRecord blake3 sim r ≠ .err e := by
  rw [applyRecord]
  split
  · rename_i hcanon
    rw [foldRecord, if_pos (hr hcanon)]
    exact bind_ne_err (stepTo_ne_err sim _) fun sim => by simp
  · exact stepTo_ne_err sim _

/-- Records that can be applied leave a simulation nothing to fail for. -/
theorem simLoop_ne_err {e : HvFault} {end_ stop : Nat} (ha : Applicable end_ rs) :
    ∀ (fold : VirtualFold) (sim : GuestSim),
      simLoop blake3 stop fold sim (rs.map framed) ≠ .err e := by
  induction rs with
  | nil =>
      intro fold sim
      rw [List.map_nil, simLoop]
      simp
  | cons r rs ih =>
      intro fold sim
      rw [List.map_cons, simLoop, framed, appliable, ok_bind]
      split
      · simp
      · refine bind_ne_err (fold.maybeApply_ne_err sim _ _) fun moved => ?_
        exact bind_ne_err (applyRecord_ne_err (ha.canonical r (List.mem_cons_self ..)))
          fun sim => ih ha.tail moved.1 sim

theorem simTo_ne_err {e : HvFault} {defect : InjectedDefect} {side : Side} {index : UInt32}
    {stop : Nat} (hrecords : (segment.records : Outcome HvFault _) = .ok (rs.map framed))
    (ha : Applicable segment.header.endIcount.toNat rs) :
    simTo blake3 defect segment stop side index ≠ .err e := by
  rw [simTo, hrecords, ok_bind]
  refine bind_ne_err (simLoop_ne_err ha _ _) fun moved => ?_
  exact bind_ne_err (moved.1.finish_ne_err moved.2 stop) fun moved => stepTo_ne_err moved.2 stop

theorem bound_of_simTo {defect : InjectedDefect} {side : Side} {index : UInt32} {stop : Nat}
    {sim : GuestSim} (h : simTo blake3 defect segment stop side index = .ok sim) :
    (stop / mockEpochIcounts + 1) * mockEpochIcounts < u64Bound := by
  obtain ⟨items, -, h⟩ := bind_eq_ok.mp h
  obtain ⟨moved, -, h⟩ := bind_eq_ok.mp h
  obtain ⟨finished, -, h⟩ := bind_eq_ok.mp h
  exact bound_of_stepTo h

/-- A probe of the end panics where the end cannot be stepped to. -/
theorem runToIcount_panics (hs : SealedSegment blake3 segment rs)
    {hv : MockHypervisor blake3} {budget : RunBudget} (hlt : budget.used < budget.maxRuns)
    (hend : ¬segment.header.endIcount.toNat + mockEpochIcounts < 2 ^ 64) :
    (HypervisorReplay.runToIcount segment.header.baseSnapshotId segment
      segment.header.endIcount.toNat (hv, budget)).1 = .panic := by
  rw [runToIcount_eq rfl (le_refl _) hlt]
  cases hsim : simTo blake3 hv.defect segment segment.header.endIcount.toNat
      (.replayed hv.runs) 0 with
  | ok sim => exact absurd (nextBoundary_lt_iff.mp (bound_of_simTo hsim)) hend
  | err e => exact absurd hsim (simTo_ne_err hs.records_eq hs.applicable)
  | panic => rfl

end Unbounded

/-- Replaying a segment that the validator accepts never panics, whatever the
defect, the options, the budget and the stop, exactly when the boundary after
its end is a 64-bit number. -/
theorem replay_ne_panic_iff {blake3 : Bytes → Bytes32} {segment : DhilogSegment}
    (hvalid : validateStructure blake3 segment = .ok ()) :
    (∀ (s : HvState (MockHypervisor blake3)) (base : SnapshotRef) (opts : VerifyOpts)
        (stop : Nat),
      (HypervisorReplay.verifySegment base segment opts s).1 ≠ .panic ∧
        (HypervisorReplay.runToIcount base segment stop (s.hv, s.budget)).1 ≠ .panic) ↔
      segment.header.endIcount.toNat + mockEpochIcounts < 2 ^ 64 := by
  obtain ⟨rs, hs⟩ := (validateStructure_eq_ok blake3 segment).mp hvalid
  constructor
  · intro h
    by_contra hend
    have hprobe := (h ⟨MockHypervisor.new blake3 .none, RunBudget.new 1, []⟩
      segment.header.baseSnapshotId ⟨false, 1⟩ segment.header.endIcount.toNat).2
    exact hprobe (runToIcount_panics hs Nat.one_pos hend)
  · intro hend s base opts stop
    have ha := hs.applies hend
    exact ⟨verifySegment_ne_panic ha base opts s,
      runToIcount_ne_panic ha base stop s.hv s.budget⟩

def endAt (blake3 : Bytes → Bytes32) (end_ : UInt64) : DhilogSegment :=
  DhilogSegment.ofRecords blake3
    { bareHeader 0x0100 (Bytes32.fill 1) (Bytes32.fill 2) Bytes32.zero with endIcount := end_ }
    [{ bareEnd with icount := end_ }]

theorem validate_endAt :
    validateStructure Blake3.hash (endAt Blake3.hash 4096) = .ok () ∧
      validateStructure Blake3.hash (endAt Blake3.hash 0xFFFFFFFFFFFFFFFF) = .ok () := by
  decide +kernel

theorem endIcount_endAt (blake3 : Bytes → Bytes32) (end_ : UInt64) :
    (endAt blake3 end_).header.endIcount = end_ := rfl

theorem replay_ne_panic_iff_endAt :
    (∀ (s : HvState (MockHypervisor Blake3.hash)) (base : SnapshotRef) (opts : VerifyOpts)
        (stop : Nat),
      (HypervisorReplay.verifySegment base (endAt Blake3.hash 4096) opts s).1 ≠ .panic ∧
        (HypervisorReplay.runToIcount base (endAt Blake3.hash 4096) stop
          (s.hv, s.budget)).1 ≠ .panic) ↔
      (endAt Blake3.hash 4096).header.endIcount.toNat + mockEpochIcounts < 2 ^ 64 :=
  replay_ne_panic_iff validate_endAt.1

/-- The validator does not bound the end: a valid segment that ends with the
last icount there is. -/
theorem endAt_last_panics :
    validateStructure Blake3.hash (endAt Blake3.hash 0xFFFFFFFFFFFFFFFF) = .ok () ∧
      (HypervisorReplay.runToIcount
        (endAt Blake3.hash 0xFFFFFFFFFFFFFFFF).header.baseSnapshotId
        (endAt Blake3.hash 0xFFFFFFFFFFFFFFFF)
        (endAt Blake3.hash 0xFFFFFFFFFFFFFFFF).header.endIcount.toNat
        (MockHypervisor.new Blake3.hash .none, RunBudget.new 1)).1 = .panic := by
  obtain ⟨rs, hs⟩ := (validateStructure_eq_ok Blake3.hash _).mp validate_endAt.2
  refine ⟨validate_endAt.2, runToIcount_panics hs Nat.one_pos ?_⟩
  rw [endIcount_endAt]
  decide

end ReplayRenderer
