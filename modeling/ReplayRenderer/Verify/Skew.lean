import ReplayRenderer.Lib.Blake3
import ReplayRenderer.Verify.Localize

/-!
Bisection of a skewed recording, from the segment's bytes to the report. The
flake runs all diverge with one outcome, so the recording is blamed; the one
native bisection that follows decides the window, or, when the flake runs
have spent the budget, the window is the whole segment.
-/

namespace ReplayRenderer

open Lib Lib.Outcome

section Skewed

variable {blake3 : Bytes → Bytes32} {spec : SegmentSpec} {at_ : UInt64} {segment : DhilogSegment}
  {hash : StateHash} (hw : SkewedAs blake3 spec at_ segment hash)
  (hfree : CollisionFree blake3 (spec.seed blake3) spec.endIcount.toNat spec.timeline
    (spec.recorded at_))
  (hchange : fnvFold (register (before at_.toNat spec.timeline)) skewFold ≠
    register (before at_.toNat spec.timeline))
  {opts : VerifyOpts} {s : HvState (MockHypervisor blake3)}

include hw hfree hchange

/-! ### The calls -/

theorem verifySegment_diverges (hdefect : s.hv.defect = .recordedSkew opts.segmentIndex at_)
    {n : Nat} (hleft : s.budget.remaining = n + 1) :
    ∃ run s', HypervisorReplay.verifySegment spec.baseSnapshotId segment opts s =
        reportDivergence (.recordedSkew opts.segmentIndex at_) segment opts run
          ((spec.recordList blake3).map framed) s' ∧ LeavesRuns n s s' := by
  have hlt : s.budget.used < s.budget.maxRuns := RunBudget.lt_of_remaining hleft
  have hdone : (s.hv.defect.foldFor (.replayed s.hv.runs) opts.segmentIndex).done = true := by
    rw [hdefect]
    rfl
  obtain ⟨events, hcall⟩ := verifySegment_of_skew hw.toRecorded hw.skewAt_eq hfree hchange hdone hlt
  rw [hdefect] at hcall
  exact ⟨s.hv.runs, _, hcall, rfl, remaining_afterRun hleft _⟩

omit hfree hchange in
theorem reportDivergence_eq {run : Nat} {items : List RecordItem}
    (s : HvState (MockHypervisor blake3)) :
    reportDivergence (.recordedSkew opts.segmentIndex at_) segment opts run items s =
      if opts.bisectOnDivergence = false then
        (.ok (.diverged (skewDivergence blake3 spec at_ (0, spec.endIcount.toNat)
          spec.endIcount.toNat)), s)
      else
        (nativeWindow (.recordedSkew opts.segmentIndex at_) segment (.replayed run)
            opts.segmentIndex items >>= fun found => do
          let d ← Proc.lift (diagnostics blake3 (.recordedSkew opts.segmentIndex at_) segment
            found.1 found.2 opts.segmentIndex run
            ((guestAt blake3 (spec.seed blake3) spec.timeline
              spec.endIcount.toNat).chainValue blake3))
          pure (.diverged d)) s := by
  rw [reportDivergence]
  simp only [hw.endIcount]
  rw [Proc.lift_bind_apply (simTo_replayed hw (le_refl _))]
  split
  · rw [Proc.lift_bind_apply (diagnostics_eq hw (le_refl _)), Proc.pure_apply]
  · rfl

variable (opts) in
/-- A flake run: the whole segment, and diagnostics that do not depend on the
run. -/
theorem verifySegment_flake (hdefect : s.hv.defect = .recordedSkew opts.segmentIndex at_)
    (hopts : opts.bisectOnDivergence = false) {n : Nat} (hleft : s.budget.remaining = n + 1) :
    ∃ s', HypervisorReplay.verifySegment spec.baseSnapshotId segment opts s =
        (.ok (.diverged (skewDivergence blake3 spec at_ (0, spec.endIcount.toNat)
          spec.endIcount.toNat)), s') ∧ LeavesRuns n s s' := by
  obtain ⟨run, s', hcall, hs'⟩ := verifySegment_diverges hw hfree hchange hdefect hleft
  refine ⟨s', ?_, hs'⟩
  rw [hcall, reportDivergence_eq hw, if_pos hopts]

variable (opts) in
/-- The native run: the window its searches leave. -/
theorem verifySegment_native (hdefect : s.hv.defect = .recordedSkew opts.segmentIndex at_)
    (hopts : opts.bisectOnDivergence = true) {n : Nat} (hleft : s.budget.remaining = n + 1) :
    ∃ window stop s', HypervisorReplay.verifySegment spec.baseSnapshotId segment opts s =
        (.ok (.diverged (skewDivergence blake3 spec at_ window stop)), s') ∧
      (window.1 ≤ at_.toNat ∧ at_.toNat ≤ window.2 ↔
        UpperSettled (spec.endIcount.toNat / mockEpochIcounts) (at_.toNat / mockEpochIcounts)
          n) ∧
      (s'.budget.remaining ≠ 0 → window = (at_.toNat, at_.toNat)) ∧
      (spec.endIcount.toNat < 2 ^ 40 → 43 ≤ n → s'.budget.remaining ≠ 0) := by
  obtain ⟨run, s₁, hcall, hs₁⟩ := verifySegment_diverges hw hfree hchange hdefect hleft
  obtain ⟨window, stop, s', hnative, -, hstop, hholds, hexact, henough⟩ :=
    nativeWindow_spec hw hfree hchange opts.segmentIndex run s₁
  rw [hs₁.remaining] at hholds henough
  refine ⟨window, stop, s', ?_, hholds, hexact, henough⟩
  rw [hcall, reportDivergence_eq hw, if_neg (by rw [hopts]; exact Bool.noConfusion),
    Proc.bind_apply_ok hnative, Proc.lift_bind_apply (diagnostics_eq hw hstop), Proc.pure_apply]

/-! ### The driver -/

variable {identity : BisectIdentity} {expected : StateHash}

variable (identity) in
/-- Phase 1: as many equal outcomes as there were runs for. -/
theorem phase1Runs_skewed (k : Nat) :
    ∀ (outcomes : List SegmentOutcome) (s : HvState (MockHypervisor blake3)),
      s.hv.defect = .recordedSkew identity.segmentIndex at_ →
      ∃ s', phase1Runs spec.baseSnapshotId segment identity k outcomes s =
          (.ok (outcomes ++ List.replicate (min k s.budget.remaining)
            (.diverged (skewDivergence blake3 spec at_ (0, spec.endIcount.toNat)
              spec.endIcount.toNat))), s') ∧
        LeavesRuns (s.budget.remaining - k) s s' := by
  induction k with
  | zero =>
      intro outcomes s _
      refine ⟨s, ?_, leavesRuns_self s⟩
      rw [phase1Runs, Nat.zero_min, List.replicate_zero, List.append_nil, Proc.pure_apply]
  | succ k ih =>
      intro outcomes s hdefect
      rw [phase1Runs, Proc.bind_apply_ok (Proc.gets_apply _ s)]
      cases hleft : s.budget.remaining with
      | zero =>
          rw [if_pos (RunBudget.exhausted_iff.mpr hleft)]
          refine ⟨s, ?_, rfl, by rw [hleft, Nat.zero_sub]⟩
          rw [Nat.min_zero, List.replicate_zero, List.append_nil, Proc.pure_apply]
      | succ n =>
          have hmore : ¬s.budget.exhausted = true := by
            rw [RunBudget.exhausted_iff, hleft]
            exact Nat.succ_ne_zero n
          obtain ⟨s₁, hcall, hs₁⟩ := verifySegment_flake hw hfree hchange
            { bisectOnDivergence := false, segmentIndex := identity.segmentIndex } hdefect rfl
            hleft
          obtain ⟨s', hrest, hs'⟩ := ih (outcomes ++ [.diverged (skewDivergence blake3 spec at_
            (0, spec.endIcount.toNat) spec.endIcount.toNat)]) s₁ (hs₁.defect.trans hdefect)
          rw [hs₁.remaining] at hrest hs'
          refine ⟨s', ?_, (hs₁.trans hs').defect, ?_⟩
          · rw [if_neg hmore, Proc.bind_apply_ok hcall, hrest, Nat.succ_min_succ,
              List.replicate_succ, List.append_assoc, List.singleton_append]
          · rw [hs'.remaining, Nat.succ_sub_succ]

/-- What a report says of a skew at `at_`, when phase 2 had `left` runs. -/
structure Localized (spec : SegmentSpec) (at_ : UInt64) (left : Nat)
    (report : DivergenceReport) : Prop where
  classification : report.classification = .recordedDivergence
  covers_iff : report.Covers at_.toNat ↔ left = 0 ∨
    UpperSettled (spec.endIcount.toNat / mockEpochIcounts) (at_.toNat / mockEpochIcounts)
      (left - 1)
  exact_of_left : report.budgetExhausted = false →
    report.offsetKind = .exactIcount ∧ report.icount = some at_.toNat
  left_of_enough : spec.endIcount.toNat < 2 ^ 40 → 44 ≤ left → report.budgetExhausted = false

variable (expected) in
/-- Phase 2: the native run, or without runs the whole segment. -/
theorem phase2_skewed {outcomes : List SegmentOutcome}
    (hdefect : s.hv.defect = .recordedSkew identity.segmentIndex at_) :
    ∃ report s', phase2 spec.baseSnapshotId segment expected identity outcomes s =
        (.ok report, s') ∧ Localized spec at_ s.budget.remaining report := by
  rw [phase2, Proc.bind_apply_ok (Proc.gets_apply _ s)]
  cases hleft : s.budget.remaining with
  | zero =>
      have hspent := RunBudget.exhausted_iff.mpr hleft
      obtain ⟨report, hdiff, hclass, hcovers, hexhausted⟩ :=
        endStateDiff_spent spec.baseSnapshotId segment expected identity
          (outcomes.findSome? SegmentOutcome.divergence) hspent
      rw [if_neg fun h => absurd (hspent.symm.trans h.2) Bool.noConfusion, hdiff]
      refine ⟨report, s, rfl, hclass, ⟨fun _ => .inl rfl, fun _ => ?_⟩, ?_, ?_⟩
      · rw [hcovers, hw.endIcount]
        exact UInt64.le_iff_toNat_le.mp (hw.valid.skew_le at_ hw.skewAt_eq)
      · intro hnot
        exact absurd (hexhausted.symm.trans hnot) Bool.noConfusion
      · intro _ henough
        omega
  | succ n =>
      have hmore : s.budget.exhausted = false := by
        rw [Bool.eq_false_iff, ne_eq, RunBudget.exhausted_iff, hleft]
        exact Nat.succ_ne_zero n
      obtain ⟨window, stop, s', hcall, hholds, hexact, henough⟩ := verifySegment_native hw hfree
        hchange { bisectOnDivergence := true, segmentIndex := identity.segmentIndex } hdefect rfl
        hleft
      rw [if_pos ⟨hw.hashed hw.omit_eq, hmore⟩, nativeBisection, Proc.bind_apply_ok hcall,
        Proc.bind_apply_ok (Proc.gets_apply _ s')]
      refine ⟨_, s', rfl, rfl, ?_, ?_, ?_⟩
      · rw [covers_makeReport, Nat.add_sub_cancel, ← hholds]
        exact ⟨.inr, fun h => h.resolve_left (Nat.succ_ne_zero n)⟩
      · intro hnot
        have hne : s'.budget.remaining ≠ 0 := fun hzero =>
          absurd ((RunBudget.exhausted_iff.mpr hzero).symm.trans hnot) Bool.noConfusion
        have hwindow := hexact hne
        exact exact_makeReport.mpr ⟨congrArg Prod.fst hwindow, congrArg Prod.snd hwindow⟩
      · intro hend hruns
        have hne := henough hend (Nat.le_of_succ_le_succ hruns)
        exact Bool.eq_false_iff.mpr (mt RunBudget.exhausted_iff.mp hne)

def BisectOptions.phase1Runs (opts : BisectOptions) : Nat :=
  if opts.skipPhase1 then 0 else opts.flakeRetries + 1

variable (expected identity) in
theorem bisect_skewed (opts : BisectOptions) (mock : MockHypervisor blake3)
    (hdefect : mock.defect = .recordedSkew identity.segmentIndex at_) :
    ∃ report mock', bisect spec.baseSnapshotId segment expected identity opts mock =
        (.ok report, mock') ∧
      Localized spec at_ (opts.maxRuns - opts.phase1Runs) report := by
  have hphases : ∃ report s', bisectPhases spec.baseSnapshotId segment expected identity opts
        ⟨mock, RunBudget.new opts.maxRuns, []⟩ = (.ok report, s') ∧
      Localized spec at_ (opts.maxRuns - opts.phase1Runs) report := by
    rw [bisectPhases, BisectOptions.phase1Runs]
    by_cases hskip : opts.skipPhase1 = true
    · rw [if_pos hskip, if_pos hskip]
      exact phase2_skewed hw hfree hchange expected hdefect
    · rw [if_neg hskip, if_neg hskip]
      obtain ⟨s', hphase1, hs'⟩ := phase1Runs_skewed hw hfree hchange identity
        (opts.flakeRetries + 1) [] ⟨mock, RunBudget.new opts.maxRuns, []⟩ hdefect
      have hall : allIdentical (List.replicate (min (opts.flakeRetries + 1) opts.maxRuns)
          (.diverged (skewDivergence blake3 spec at_ (0, spec.endIcount.toNat)
            spec.endIcount.toNat))) = true := by
        rw [allIdentical_eq_true]
        intro o ho o' ho'
        rw [(List.mem_replicate.mp ho).2, (List.mem_replicate.mp ho').2]
      rw [Proc.bind_apply_ok hphase1, RunBudget.remaining_new, List.nil_append, if_pos hall]
      obtain ⟨report, s'', hphase2, hreport⟩ :=
        phase2_skewed hw hfree hchange expected (hs'.defect.trans hdefect)
      rw [hs'.remaining] at hreport
      exact ⟨report, s'', hphase2, hreport⟩
  obtain ⟨report, s', hphases, hreport⟩ := hphases
  refine ⟨report, s'.hv, ?_, hreport⟩
  rw [bisect, hphases]

end Skewed

/-! ### From the writer to the report -/

section Written

variable {blake3 : Bytes → Bytes32} {ε : Type} {spec : SegmentSpec} {at_ : UInt64}
  {bytes : Bytes} {hash : StateHash}

def oneEvent (endIcount at_ : UInt64) : SegmentSpec :=
  { baseSnapshotId := Bytes32.fill 1
    endSnapshotId := Bytes32.fill 2
    entropySeed := Bytes32.fill 3
    machineConfigHash := Bytes32.fill 4
    clockNum := 1
    clockDen := 1
    endIcount
    events := [{ icount := 1, event := .padSet 0 1 0 }]
    frameMarks := []
    skewAt := some at_
    omitEpochHashes := false }

def steadyEvent : SegmentSpec := { oneEvent 3 2 with skewAt := none }

theorem collisionFree_oneEvent :
    CollisionFree Blake3.hash ((oneEvent 3 2).seed Blake3.hash) 3 (oneEvent 3 2).timeline
      ((oneEvent 3 2).recorded 2) := by
  decide +kernel

theorem skewFold_oneEvent :
    fnvFold (register (before 2 (oneEvent 3 2).timeline)) skewFold ≠
      register (before 2 (oneEvent 3 2).timeline) := by
  decide +kernel

def threeEpochs : SegmentSpec := oneEvent 12288 12286

theorem written_threeEpochs :
    isOkAnd (fun written => written.2 ≠ Bytes32.zero ∧ written.1.length < 2 ^ 20)
      (writeSegment Blake3.hash threeEpochs : Outcome Empty _) = true := by
  decide +kernel

theorem collisionFree_threeEpochs :
    CollisionFree Blake3.hash (threeEpochs.seed Blake3.hash) 12288 threeEpochs.timeline
      (threeEpochs.recorded 12286) :=
  collisionFree_withFold (by decide +kernel) (by decide +kernel)

theorem skewFold_threeEpochs :
    fnvFold (register (before 12286 threeEpochs.timeline)) skewFold ≠
      register (before 12286 threeEpochs.timeline) := by
  decide +kernel

def boundaryInputs (l : List Moment) : List Bytes :=
  chainInputs Blake3.hash ((oneEvent 12288 0).seed Blake3.hash) 12288 l ++
    [stateInput Blake3.hash ((oneEvent 12288 0).seed Blake3.hash) l 12288]

/-- Writing, parsing and bisecting, with two runs and no phase 1. -/
theorem earlySkew_reported :
    isOkAnd (fun (bytes, hash) =>
        isOkAnd (fun segment =>
            isOkAnd (fun report : DivergenceReport => decide (report.icount = none ∧
                report.icountWindow = some { from_ := 4096, to_ := 8192 }))
              (bisect (oneEvent 12288 0).baseSnapshotId segment hash bareIdentity
                { maxRuns := 2, skipPhase1 := true }
                (MockHypervisor.new Blake3.hash (.recordedSkew bareIdentity.segmentIndex 0))).1)
          (DhilogSegment.parse bytes))
      (writeSegment Blake3.hash (oneEvent 12288 0) : Outcome HvFault _) = true := by
  decide +kernel

/-- Bisection of a skewed recording always blames the recording, and its
window holds the skew exactly when phase 1 spends the whole budget or the
search over the recorded epochs is not cut off between its first bad probe
and its probe of the skewed epoch. -/
theorem bisect_covers_iff
    (hwrite : (writeSegment blake3 spec : Outcome ε _) = .ok (bytes, hash))
    (homit : spec.omitEpochHashes = false) (hskew : spec.skewAt = some at_)
    (hfree : CollisionFree blake3 (spec.seed blake3) spec.endIcount.toNat spec.timeline
      (spec.recorded at_))
    (hchange : fnvFold (register (before at_.toNat spec.timeline)) skewFold ≠
      register (before at_.toNat spec.timeline))
    (identity : BisectIdentity) (opts : BisectOptions) :
    ∃ segment report mock', DhilogSegment.parse bytes = .ok segment ∧
      bisect spec.baseSnapshotId segment hash identity opts
          (MockHypervisor.new blake3 (.recordedSkew identity.segmentIndex at_)) =
        (.ok report, mock') ∧
      report.classification = .recordedDivergence ∧
      (report.Covers at_.toNat ↔ opts.maxRuns ≤ opts.phase1Runs ∨
        UpperSettled (spec.endIcount.toNat / mockEpochIcounts) (at_.toNat / mockEpochIcounts)
          (opts.maxRuns - opts.phase1Runs - 1)) := by
  obtain ⟨segment, hparse, hw⟩ := skewedAs_of_writeSegment hwrite homit hskew
  obtain ⟨report, mock', hbisect, hreport⟩ := bisect_skewed hw hfree hchange identity hash opts
    (MockHypervisor.new blake3 (.recordedSkew identity.segmentIndex at_)) rfl
  refine ⟨segment, report, mock', hparse, hbisect, hreport.classification, ?_⟩
  rw [hreport.covers_iff, Nat.sub_eq_zero_iff_le]

/-- Four runs show that the recording is bad, one more replays it, and two
probes find the epoch. -/
theorem bisect_covers_iff_threeEpochs :
    ∃ bytes hash, (writeSegment Blake3.hash threeEpochs : Outcome Empty _) = .ok (bytes, hash) ∧
      ∃ segment report mock', DhilogSegment.parse bytes = .ok segment ∧
        bisect threeEpochs.baseSnapshotId segment hash bareIdentity { maxRuns := 7 }
            (MockHypervisor.new Blake3.hash (.recordedSkew bareIdentity.segmentIndex 12286)) =
          (.ok report, mock') ∧
        report.classification = .recordedDivergence ∧ report.Covers 12286 := by
  obtain ⟨⟨bytes, hash⟩, hwrite, -⟩ := isOkAnd_iff.mp written_threeEpochs
  obtain ⟨segment, report, mock', hparse, hbisect, hclass, hcovers⟩ :=
    bisect_covers_iff hwrite rfl rfl collisionFree_threeEpochs skewFold_threeEpochs bareIdentity
      { maxRuns := 7 }
  have hsettled : UpperSettled 3 2 2 := by simp [UpperSettled, probeDepth, lowerMiddle]
  exact ⟨bytes, hash, hwrite, segment, report, mock', hparse, hbisect, hclass,
    hcovers.mpr (.inr hsettled)⟩

/-- The second epoch of three is probed bad with the last run, and the first,
where the skew is, is taken to be good. No two inputs that the run hashes
collide. -/
theorem bisect_misses_early_skew :
    (oneEvent 12288 0).omitEpochHashes = false ∧ (oneEvent 12288 0).skewAt = some 0 ∧
      fnvFold (register (before 0 (oneEvent 12288 0).timeline)) skewFold ≠
        register (before 0 (oneEvent 12288 0).timeline) ∧
      ((boundaryInputs (oneEvent 12288 0).timeline ++
        boundaryInputs ((oneEvent 12288 0).recorded 0)).map Blake3.hash).Nodup ∧
      ∃ bytes hash segment report mock',
        (writeSegment Blake3.hash (oneEvent 12288 0) : Outcome HvFault _) = .ok (bytes, hash) ∧
        DhilogSegment.parse bytes = .ok segment ∧
        bisect (oneEvent 12288 0).baseSnapshotId segment hash bareIdentity
            { maxRuns := 2, skipPhase1 := true }
            (MockHypervisor.new Blake3.hash (.recordedSkew bareIdentity.segmentIndex 0)) =
          (.ok report, mock') ∧
        report.icount = none ∧ report.icountWindow = some { from_ := 4096, to_ := 8192 } ∧
        ¬report.Covers 0 := by
  refine ⟨rfl, rfl, by decide +kernel, by decide +kernel, ?_⟩
  obtain ⟨⟨bytes, hash⟩, hwrite, hcheck⟩ := isOkAnd_iff.mp earlySkew_reported
  obtain ⟨segment, hparse, hcheck⟩ := isOkAnd_iff.mp hcheck
  obtain ⟨report, hbisect, hcheck⟩ := isOkAnd_iff.mp hcheck
  obtain ⟨hicount, hwindow⟩ := of_decide_eq_true hcheck
  refine ⟨bytes, hash, segment, report, _, hwrite, hparse, Prod.ext hbisect rfl, hicount, hwindow,
    ?_⟩
  simp [DivergenceReport.Covers, hicount, hwindow]

/-- A report with budget left names the icount of the skew; and the default
budget is left over on every segment of fewer than `2 ^ 40` instructions. -/
theorem bisect_exact
    (hwrite : (writeSegment blake3 spec : Outcome ε _) = .ok (bytes, hash))
    (homit : spec.omitEpochHashes = false) (hskew : spec.skewAt = some at_)
    (hfree : CollisionFree blake3 (spec.seed blake3) spec.endIcount.toNat spec.timeline
      (spec.recorded at_))
    (hchange : fnvFold (register (before at_.toNat spec.timeline)) skewFold ≠
      register (before at_.toNat spec.timeline))
    (identity : BisectIdentity) :
    ∃ segment, DhilogSegment.parse bytes = .ok segment ∧
      (∀ (opts : BisectOptions) (runs : Nat), ∃ report mock',
        bisect spec.baseSnapshotId segment hash identity opts
            (⟨.recordedSkew identity.segmentIndex at_, runs⟩ : MockHypervisor blake3) =
          (.ok report, mock') ∧
        (report.budgetExhausted = false →
          report.offsetKind = .exactIcount ∧ report.icount = some at_.toNat)) ∧
      (spec.endIcount.toNat < 2 ^ 40 → ∃ report mock',
        bisect spec.baseSnapshotId segment hash identity {}
            (MockHypervisor.new blake3 (.recordedSkew identity.segmentIndex at_)) =
          (.ok report, mock') ∧
        report.budgetExhausted = false) := by
  obtain ⟨segment, hparse, hw⟩ := skewedAs_of_writeSegment hwrite homit hskew
  refine ⟨segment, hparse, fun opts runs => ?_, fun hend => ?_⟩
  · obtain ⟨report, mock', hbisect, hreport⟩ := bisect_skewed hw hfree hchange identity hash opts
      ⟨.recordedSkew identity.segmentIndex at_, runs⟩ rfl
    exact ⟨report, mock', hbisect, hreport.exact_of_left⟩
  · obtain ⟨report, mock', hbisect, hreport⟩ := bisect_skewed hw hfree hchange identity hash {}
      (MockHypervisor.new blake3 (.recordedSkew identity.segmentIndex at_)) rfl
    exact ⟨report, mock', hbisect, hreport.left_of_enough hend (by decide)⟩

theorem bisect_exact_threeEpochs :
    ∃ bytes hash, (writeSegment Blake3.hash threeEpochs : Outcome Empty _) = .ok (bytes, hash) ∧
      ∃ segment, DhilogSegment.parse bytes = .ok segment ∧ ∃ report mock',
        bisect threeEpochs.baseSnapshotId segment hash bareIdentity {}
            (MockHypervisor.new Blake3.hash (.recordedSkew bareIdentity.segmentIndex 12286)) =
          (.ok report, mock') ∧
        report.budgetExhausted = false ∧ report.offsetKind = .exactIcount ∧
        report.icount = some 12286 := by
  obtain ⟨⟨bytes, hash⟩, hwrite, -⟩ := isOkAnd_iff.mp written_threeEpochs
  obtain ⟨segment, hparse, hexact, hleft⟩ :=
    bisect_exact hwrite rfl rfl collisionFree_threeEpochs skewFold_threeEpochs bareIdentity
  obtain ⟨report, mock', hbisect, hbudget⟩ := hleft (by decide)
  obtain ⟨report', mock'', hbisect', hicount⟩ := hexact {} 0
  obtain rfl := Outcome.ok.inj (Prod.mk.inj (hbisect'.symm.trans hbisect)).1
  exact ⟨bytes, hash, hwrite, segment, hparse, report', mock', hbisect, hbudget, hicount hbudget⟩

end Written

end ReplayRenderer
