import ReplayRenderer.Verify.Decided

/-!
Runs that phase 1 cannot tell apart. A run depends on its number through its fold
alone, so runs with one fold have one outcome, down to the diagnostics; and what a
flake folds changes only every period. So phase 1 sees a flake exactly when its runs
do not all lie within one period, and blames the recording for every other.
-/

namespace ReplayRenderer

open Lib Lib.Outcome

def pagesAt (at_ : Nat) : List Nat := [at_ / mockEpochIcounts, at_ / mockEpochIcounts + 1]

def InjectedDefect.SameFold (defect : InjectedDefect) (index : UInt32) (run run' : Nat) : Prop :=
  defect.foldFor (.replayed run) index = defect.foldFor (.replayed run') index

theorem InjectedDefect.ReplaysClean.sameFold {defect : InjectedDefect} (h : defect.ReplaysClean)
    (index : UInt32) (run run' : Nat) : defect.SameFold index run run' := by
  rw [InjectedDefect.SameFold, h.foldFor, h.foldFor]

/-! ### One run -/

section Run

variable {blake3 : Bytes → Bytes32} {segment : DhilogSegment} {rs : List Record}
  {defect : InjectedDefect} {index : UInt32} {run run' : Nat}

theorem simTo_sameFold (h : defect.SameFold index run run') (stop : Nat) :
    simTo blake3 defect segment stop (.replayed run) index =
      simTo blake3 defect segment stop (.replayed run') index := by
  rw [simTo, simTo, h]

theorem replayTimeline_sameFold (h : defect.SameFold index run run') :
    replayTimeline defect (.replayed run) index rs =
      replayTimeline defect (.replayed run') index rs := by
  rw [replayTimeline, replayTimeline, h]

theorem replayHash_sameFold (h : defect.SameFold index run run') :
    replayHash blake3 defect segment (.replayed run) index rs =
      replayHash blake3 defect segment (.replayed run') index rs := by
  rw [replayHash, replayHash, replayTimeline_sameFold h]

variable (blake3) in
/-- Runs with the fold of `run` report one divergence. -/
theorem Applies.reportDivergence_sameFold (ha : Applies segment rs) (defect : InjectedDefect)
    (run : Nat) (opts : VerifyOpts) (hopts : opts.bisectOnDivergence = false) :
    ∃ d, (∀ run' (s : HvState (MockHypervisor blake3)),
        defect.SameFold opts.segmentIndex run' run →
        ReplayRenderer.reportDivergence defect segment opts run' (rs.map framed) s =
          (.ok (.diverged d), s)) ∧
      d.endStateHash =
        replayHash blake3 defect segment (.replayed run) opts.segmentIndex rs ∧
      d.diffPageIdx = pagesAt segment.header.endIcount.toNat := by
  obtain ⟨endSim, hendSim, hend⟩ := ha.endSim blake3 defect run opts.segmentIndex
  obtain ⟨d, hd, hhash, hpages⟩ : ∃ d, ReplayRenderer.diagnostics blake3 defect segment
      (0, segment.header.endIcount.toNat) segment.header.endIcount.toNat opts.segmentIndex run
        (endSim.chainValue blake3) = .ok d ∧
      d.endStateHash = endSim.chainValue blake3 ∧
      d.diffPageIdx = pagesAt segment.header.endIcount.toNat := by
    rw [ReplayRenderer.diagnostics, ha.simTo defect .recorded opts.segmentIndex (le_refl _),
      hendSim]
    exact ⟨_, rfl, rfl, rfl⟩
  refine ⟨d, fun run' s hfold => ?_, hhash.trans hend, hpages⟩
  rw [ReplayRenderer.diagnostics, ← simTo_sameFold hfold] at hd
  rw [← simTo_sameFold hfold] at hendSim
  rw [ReplayRenderer.reportDivergence]
  simp only
  rw [Proc.lift_bind_apply hendSim, if_pos hopts, ReplayRenderer.diagnostics,
    Proc.lift_bind_apply hd]
  rfl

variable (blake3) in
/-- Runs with the fold of `run` have one outcome, a divergence when the replay does not come
to the hash of the header. -/
theorem Applies.verifySegment_sameFold (ha : Applies segment rs)
    (hwell : ∀ r ∈ rs, ¬r.MalformedEpoch) (defect : InjectedDefect) (run : Nat)
    (opts : VerifyOpts) (hopts : opts.bisectOnDivergence = false) :
    ∃ outcome, (∀ (s : HvState (MockHypervisor blake3)) (hlt : s.budget.used < s.budget.maxRuns),
        s.hv.defect = defect → defect.SameFold opts.segmentIndex s.hv.runs run → ∃ events,
          HypervisorReplay.verifySegment segment.header.baseSnapshotId segment opts s =
            (.ok outcome, s.afterRun hlt events)) ∧
      outcome.endStateHash =
        replayHash blake3 defect segment (.replayed run) opts.segmentIndex rs ∧
      (outcome.endStateHash ≠ segment.header.endStateHash → ∃ d, outcome = .diverged d ∧
        d.diffPageIdx = pagesAt segment.header.endIcount.toNat) := by
  obtain ⟨epochs, hepochs, -⟩ := exists_recordedEpochs (ε := HvFault) rs
  obtain ⟨d, hreport, hdHash, hdPages⟩ :=
    ha.reportDivergence_sameFold blake3 defect run opts hopts
  by_cases hgood : (∀ epoch ∈ epochs, epoch.Agrees blake3 (segment.seed blake3)
        (replayTimeline defect (.replayed run) opts.segmentIndex rs)) ∧
      replayHash blake3 defect segment (.replayed run) opts.segmentIndex rs =
        segment.header.endStateHash
  · refine ⟨.verified segment.header.endStateHash epochs.length, ?_, hgood.2.symm, fun hne => ?_⟩
    · rintro s hlt rfl hfold
      have hcall := ha.verifySegment hepochs opts s hlt
      generalize HypervisorReplay.verifySegment segment.header.baseSnapshotId segment opts s =
        result at hcall ⊢
      cases hcall with
      | malformed hbad =>
          obtain ⟨r, hr, hbad⟩ := hbad
          exact absurd hbad (hwell r hr)
      | verified _ _ hhash => exact ⟨_, by rw [hhash]⟩
      | diverged hbad =>
          rw [replayTimeline_sameFold hfold, replayHash_sameFold hfold] at hbad
          rcases hbad with ⟨epoch, hepoch, hne⟩ | hne
          · exact absurd (hgood.1 epoch hepoch) hne
          · exact absurd hgood.2 hne
    · exact absurd rfl hne
  · refine ⟨.diverged d, ?_, hdHash, fun _ => ⟨d, rfl, hdPages⟩⟩
    rintro s hlt rfl hfold
    have hcall := ha.verifySegment hepochs opts s hlt
    generalize HypervisorReplay.verifySegment segment.header.baseSnapshotId segment opts s =
      result at hcall ⊢
    cases hcall with
    | malformed hbad =>
        obtain ⟨r, hr, hbad⟩ := hbad
        exact absurd hbad (hwell r hr)
    | verified _ hagrees hhash =>
        rw [replayTimeline_sameFold hfold] at hagrees
        rw [replayHash_sameFold hfold] at hhash
        exact absurd ⟨hagrees, hhash⟩ hgood
    | diverged _ => exact ⟨_, hreport _ _ hfold⟩

end Run

/-! ### Phase 1 -/

section Phase1

variable {blake3 : Bytes → Bytes32} {base : SnapshotRef} {segment : DhilogSegment}
  {identity : BisectIdentity} {outcome : SegmentOutcome} {defect : InjectedDefect}
  {P : Nat → Prop}

/-- Flake runs that all have one outcome, as long as there are runs for them. -/
theorem phase1Runs_same
    (hcall : ∀ (s : HvState (MockHypervisor blake3)) (hlt : s.budget.used < s.budget.maxRuns),
      s.hv.defect = defect → P s.hv.runs → ∃ events,
        HypervisorReplay.verifySegment base segment
            { bisectOnDivergence := false, segmentIndex := identity.segmentIndex } s =
          (.ok outcome, s.afterRun hlt events)) (k : Nat) :
    ∀ (outcomes : List SegmentOutcome) (s : HvState (MockHypervisor blake3)),
      s.hv.defect = defect → (∀ i < k, P (s.hv.runs + i)) →
      ∃ s', phase1Runs base segment identity k outcomes s =
          (.ok (outcomes ++ List.replicate (min k s.budget.remaining) outcome), s') ∧
        RunsLater (min k s.budget.remaining) s s' := by
  induction k with
  | zero =>
      intro outcomes s _ _
      rw [Nat.zero_min]
      exact ⟨s, by simp [phase1Runs], rfl, rfl, rfl, rfl⟩
  | succ k ih =>
      intro outcomes s hs hruns
      rw [phase1Runs, Proc.bind_apply_ok (Proc.gets_apply _ s)]
      cases hleft : s.budget.remaining with
      | zero =>
          rw [if_pos (RunBudget.exhausted_iff.mpr hleft), Nat.min_zero]
          exact ⟨s, by simp, rfl, rfl, rfl, rfl⟩
      | succ n =>
          have hmore : ¬s.budget.exhausted = true := by
            rw [RunBudget.exhausted_iff, hleft]
            exact Nat.succ_ne_zero n
          have hlt := RunBudget.lt_of_remaining hleft
          obtain ⟨events, hrun⟩ := hcall s hlt hs (hruns 0 (Nat.succ_pos k))
          obtain ⟨s', hrest, hs'⟩ := ih (outcomes ++ [outcome]) (s.afterRun hlt events) hs (by
            intro i hi
            have hnext := hruns (i + 1) (Nat.succ_lt_succ hi)
            rwa [Nat.add_comm i 1, ← Nat.add_assoc] at hnext)
          rw [remaining_afterRun hleft events] at hrest hs'
          refine ⟨s', ?_, ?_⟩
          · rw [if_neg hmore, Proc.bind_apply_ok hrun, hrest, Nat.succ_min_succ,
              List.replicate_succ, List.append_assoc, List.singleton_append]
          · rw [Nat.succ_min_succ, Nat.succ_eq_one_add]
            exact (runsLater_afterRun hlt events).trans hs'

theorem allIdentical_replicate (n : Nat) (outcome : SegmentOutcome) :
    allIdentical (List.replicate n outcome) = true := by
  rw [allIdentical_eq_true]
  intro o ho o' ho'
  rw [(List.mem_replicate.mp ho).2, (List.mem_replicate.mp ho').2]

theorem bisectPhases_same (mock : MockHypervisor blake3) (P : Nat → Prop) (expected : StateHash)
    (opts : BisectOptions)
    (hcall : ∀ (s : HvState (MockHypervisor blake3)) (hlt : s.budget.used < s.budget.maxRuns),
      s.hv.defect = mock.defect → P s.hv.runs → ∃ events,
        HypervisorReplay.verifySegment base segment
            { bisectOnDivergence := false, segmentIndex := identity.segmentIndex } s =
          (.ok outcome, s.afterRun hlt events))
    (hruns : ∀ i < opts.phase1Runs, P (mock.runs + i)) :
    ∃ s, bisectPhases base segment expected identity opts
          ⟨mock, RunBudget.new opts.maxRuns, []⟩ =
        phase2 base segment expected identity
          (List.replicate (min opts.phase1Runs opts.maxRuns) outcome) s ∧
      RunsLater (min opts.phase1Runs opts.maxRuns) ⟨mock, RunBudget.new opts.maxRuns, []⟩ s := by
  rw [bisectPhases]
  rw [BisectOptions.phase1Runs] at hruns ⊢
  by_cases hskip : opts.skipPhase1 = true
  · rw [if_pos hskip, if_pos hskip, Nat.zero_min]
    exact ⟨_, rfl, rfl, rfl, rfl, rfl⟩
  · rw [if_neg hskip] at hruns ⊢
    rw [if_neg hskip]
    obtain ⟨s, hphase1, hs⟩ := phase1Runs_same hcall (opts.flakeRetries + 1) []
      ⟨mock, RunBudget.new opts.maxRuns, []⟩ rfl hruns
    rw [RunBudget.remaining_new] at hs
    rw [RunBudget.remaining_new, List.nil_append] at hphase1
    refine ⟨s, ?_, hs⟩
    rw [Proc.bind_apply_ok hphase1, if_pos (allIdentical_replicate _ _)]

end Phase1

/-! ### Phase 2 -/

section Phase2

variable {blake3 : Bytes → Bytes32} {segment : DhilogSegment} {rs : List Record}

/-- A stop at the end of the segment spends a run and comes to the end hash. -/
theorem Applies.runToIcount_end (ha : Applies segment rs)
    {s : HvState (MockHypervisor blake3)} (hlt : s.budget.used < s.budget.maxRuns) :
    HvState.runToIcount segment.header.baseSnapshotId segment segment.header.endIcount.toNat s =
      (.ok (replayHash blake3 s.hv.defect segment (.replayed s.hv.runs) 0 rs),
        s.afterRun hlt s.events) := by
  have hbase : (rejectIf (segment.header.baseSnapshotId ≠ segment.header.baseSnapshotId)
      .baseMismatch : Outcome HvFault Unit) = .ok () := rejectIf_neg (not_not.mpr rfl)
  have hpast : (rejectIf (segment.header.endIcount.toNat < segment.header.endIcount.toNat)
      (.probePastEnd segment.header.endIcount.toNat segment.header.endIcount.toNat) :
      Outcome HvFault Unit) = .ok () := rejectIf_neg (lt_irrefl _)
  have hspend := spendRun_of_lt (s := (⟨s.hv, s.budget, []⟩ : HvState (MockHypervisor blake3))) hlt
  have hsim : ReplayRenderer.simTo blake3 s.hv.defect segment segment.header.endIcount.toNat
      (.replayed s.hv.runs) 0 = .ok _ := ha.simTo s.hv.defect (.replayed s.hv.runs) 0 (le_refl _)
  have hrun : MockHypervisor.runToIcount segment.header.baseSnapshotId segment
      segment.header.endIcount.toNat (⟨s.hv, s.budget, []⟩ : HvState (MockHypervisor blake3)) =
        (.ok (replayHash blake3 s.hv.defect segment (.replayed s.hv.runs) 0 rs),
          HvState.afterRun ⟨s.hv, s.budget, []⟩ hlt []) := by
    rw [MockHypervisor.runToIcount, Proc.lift_bind_apply hbase, Proc.lift_bind_apply hpast,
      Proc.bind_apply_ok hspend]
    exact Proc.lift_bind_apply hsim
  have hcall : HvState.runToIcount segment.header.baseSnapshotId segment
      segment.header.endIcount.toNat s =
        (fun call => (call.1, ⟨call.2.hv, call.2.budget, s.events⟩))
          (MockHypervisor.runToIcount segment.header.baseSnapshotId segment
            segment.header.endIcount.toNat ⟨s.hv, s.budget, []⟩) := rfl
  rw [hcall, hrun]
  rfl

theorem Applies.endState_total (ha : Applies segment rs) (phase1Diverged : Option Divergence)
    (s : HvState (MockHypervisor blake3)) :
    ∃ result s', endState segment.header.baseSnapshotId segment phase1Diverged s =
      (.ok result, s') := by
  rw [endState, Proc.bind_apply_ok (Proc.gets_apply _ s)]
  by_cases hspent : s.budget.exhausted = true
  · rw [if_pos hspent]
    exact ⟨_, _, rfl⟩
  · have hlt : s.budget.used < s.budget.maxRuns := by
      simpa only [RunBudget.exhausted, decide_eq_true_eq, not_le] using hspent
    have hattempt : (Proc.attempt (HvState.runToIcount segment.header.baseSnapshotId segment
        segment.header.endIcount.toNat) : Proc _ HvFault _) s =
          (.ok (.ok (replayHash blake3 s.hv.defect segment (.replayed s.hv.runs) 0 rs)),
            s.afterRun hlt s.events) := by
      rw [Proc.attempt, ha.runToIcount_end hlt]
    rw [if_neg hspent, Proc.bind_apply_ok hattempt]
    exact ⟨_, _, rfl⟩

/-- Phase 2 blames the recording, whatever it finds. -/
theorem Applies.phase2_blames (ha : Applies segment rs) (hwell : ∀ r ∈ rs, ¬r.MalformedEpoch)
    (expected : StateHash) (identity : BisectIdentity) (outcomes : List SegmentOutcome)
    (s : HvState (MockHypervisor blake3)) :
    ∃ report s', phase2 segment.header.baseSnapshotId segment expected identity outcomes s =
        (.ok report, s') ∧ report.classification = .recordedDivergence := by
  rw [phase2, Proc.bind_apply_ok (Proc.gets_apply _ s)]
  split
  · next hnative =>
      have hlt : s.budget.used < s.budget.maxRuns := by
        simpa only [RunBudget.exhausted, decide_eq_false_iff_not, not_le] using hnative.2
      obtain ⟨epochs, hepochs, -⟩ := exists_recordedEpochs (ε := HvFault) rs
      obtain ⟨outcome, s', hcall⟩ : ∃ outcome s', HypervisorReplay.verifySegment
          segment.header.baseSnapshotId segment
          { bisectOnDivergence := true, segmentIndex := identity.segmentIndex } s =
            (.ok outcome, s') := by
        have hcall := ha.verifySegment hepochs
          { bisectOnDivergence := true, segmentIndex := identity.segmentIndex } s hlt
        generalize HypervisorReplay.verifySegment segment.header.baseSnapshotId segment
          { bisectOnDivergence := true, segmentIndex := identity.segmentIndex } s = result
          at hcall ⊢
        cases hcall with
        | malformed hbad =>
            obtain ⟨r, hr, hbad⟩ := hbad
            exact absurd hbad (hwell r hr)
        | verified _ _ _ => exact ⟨_, _, rfl⟩
        | diverged _ =>
            obtain ⟨d, s', hreport, -⟩ := ha.reportDivergence s.hv.defect
              { bisectOnDivergence := true, segmentIndex := identity.segmentIndex } s.hv.runs _
            exact ⟨_, _, hreport⟩
      rw [nativeBisection, Proc.bind_apply_ok hcall, Proc.bind_apply_ok (Proc.gets_apply _ s')]
      cases outcome with
      | verified end_ epochsOk => exact ⟨_, _, rfl, rfl⟩
      | diverged d => exact ⟨_, _, rfl, rfl⟩
  · obtain ⟨result, s', hstate⟩ :=
      ha.endState_total (outcomes.findSome? SegmentOutcome.divergence) s
    rw [endStateDiff, Proc.bind_apply_ok hstate]
    exact ⟨_, _, rfl, rfl⟩

end Phase2

/-! ### A flake -/

/-- Between two runs of one period every run has their flake. -/
theorem sameFold_of_div_eq {at_ : UInt64} {period : UInt32} {runs retries p : Nat}
    (hp : p = max period.toNat 1) (heq : runs / p = (runs + retries) / p) (index : UInt32)
    {i : Nat} (hi : i ≤ retries) :
    (InjectedDefect.replayNondet index at_ period).SameFold index (runs + i) runs := by
  have hvalue : (runs + i) / p = runs / p := by
    have hlow : runs / p ≤ (runs + i) / p := Nat.div_le_div_right (Nat.le_add_right runs i)
    have hhigh : (runs + i) / p ≤ (runs + retries) / p :=
      Nat.div_le_div_right (Nat.add_le_add_left hi runs)
    omega
  rw [hp] at hvalue
  simp only [InjectedDefect.SameFold, InjectedDefect.foldFor, if_true, hvalue]

/-- Phase 1 sees a flake exactly when its first and its last run have different flake
values; a flake that does not change in between is blamed on the recording. -/
theorem bisect_flake_classified {blake3 : Bytes → Bytes32} {ε : Type} {spec : SegmentSpec}
    {bytes : Bytes} {hash : StateHash}
    (hwrite : (writeSegment blake3 spec : Outcome ε _) = .ok (bytes, hash)) {at_ : UInt64}
    (hat : at_ ≤ spec.endIcount) {period : UInt32} {p : Nat} (hp : p = max period.toNat 1)
    {opts : BisectOptions} (hmax : opts.flakeRetries + 1 ≤ opts.maxRuns)
    (hphase1 : opts.skipPhase1 = false) (runs : Nat)
    (hregister : ∀ v ∈ flakeValues runs opts.flakeRetries p,
      ∀ v' ∈ flakeValues runs opts.flakeRetries p,
        fnvFold (register (before at_.toNat spec.timeline)) (flakeFold v) =
          fnvFold (register (before at_.toNat spec.timeline)) (flakeFold v') → v = v')
    (hfree : ∀ v ∈ flakeValues runs opts.flakeRetries p,
      ∀ v' ∈ flakeValues runs opts.flakeRetries p,
        spec.endOf blake3 (spec.flaked at_ v) = spec.endOf blake3 (spec.flaked at_ v') →
          stateInput blake3 (spec.seed blake3) (spec.flaked at_ v) spec.endIcount.toNat =
            stateInput blake3 (spec.seed blake3) (spec.flaked at_ v') spec.endIcount.toNat)
    (identity : BisectIdentity) (expected : StateHash) :
    ∃ segment report mock', DhilogSegment.parse bytes = .ok segment ∧
      bisect spec.baseSnapshotId segment expected identity opts
          (⟨.replayNondet identity.segmentIndex at_ period, runs⟩ : MockHypervisor blake3) =
        (.ok report, mock') ∧
      report.classification =
        if runs / p = (runs + opts.flakeRetries) / p then .recordedDivergence
        else .replayNondeterministic := by
  obtain ⟨segment, hparse, hw⟩ := writtenAs_of_writeSegment hwrite
  have hwell := wellFormed_recordList hw.toRecorded
  by_cases heq : runs / p = (runs + opts.flakeRetries) / p
  · obtain ⟨outcome, hcall, -⟩ := hw.applies.verifySegment_sameFold blake3 hwell
      (.replayNondet identity.segmentIndex at_ period) runs
      { bisectOnDivergence := false, segmentIndex := identity.segmentIndex } rfl
    obtain ⟨s, hphases, -⟩ := bisectPhases_same
      ⟨.replayNondet identity.segmentIndex at_ period, runs⟩
      (fun run => (InjectedDefect.replayNondet identity.segmentIndex at_ period).SameFold
        identity.segmentIndex run runs) expected opts hcall (by
      intro i hi
      rw [BisectOptions.phase1Runs, if_neg (by rw [hphase1]; exact Bool.false_ne_true)] at hi
      exact sameFold_of_div_eq hp heq identity.segmentIndex (Nat.le_of_lt_succ hi))
    obtain ⟨report, s', hphase2, hclass⟩ := hw.applies.phase2_blames hwell expected identity
      (List.replicate (min opts.phase1Runs opts.maxRuns) outcome) s
    refine ⟨segment, report, s'.hv, hparse, ?_, ?_⟩
    · rw [bisect, ← hw.base, hphases, hphase2]
    · rw [hclass, if_pos heq]
  · obtain ⟨report, mock', hbisect, hclass, -⟩ := hw.toRecorded.bisect_differing
      ⟨.replayNondet identity.segmentIndex at_ period, runs⟩ hmax hphase1 identity expected
      fun _ => outcomes_differ hw.toRecorded hat hp (le_refl _) (Ne.symm heq) hregister
        fun v hv v' hv' hhash => hfree v hv v' hv'
          (SegmentSpec.endOf_eq.trans (hhash.trans SegmentSpec.endOf_eq.symm))
    exact ⟨segment, report, mock', hparse, hbisect, by rw [hclass, if_neg heq]⟩

/-- Four runs after five, with a period of two and with one of ten. -/
theorem bisect_flake_classified_steadyEvent :
    ∃ bytes hash, (writeSegment Blake3.hash steadyEvent : Outcome HvFault _) = .ok (bytes, hash) ∧
      (∃ segment report mock', DhilogSegment.parse bytes = .ok segment ∧
        bisect steadyEvent.baseSnapshotId segment hash bareIdentity { maxRuns := 4 }
            (⟨.replayNondet bareIdentity.segmentIndex 2 2, 5⟩ : MockHypervisor Blake3.hash) =
          (.ok report, mock') ∧
        report.classification =
          if 5 / 2 = (5 + 3) / 2 then .recordedDivergence else .replayNondeterministic) ∧
      ∃ segment report mock', DhilogSegment.parse bytes = .ok segment ∧
        bisect steadyEvent.baseSnapshotId segment hash bareIdentity { maxRuns := 4 }
            (⟨.replayNondet bareIdentity.segmentIndex 2 10, 5⟩ : MockHypervisor Blake3.hash) =
          (.ok report, mock') ∧
        report.classification =
          if 5 / 10 = (5 + 3) / 10 then .recordedDivergence else .replayNondeterministic := by
  obtain ⟨⟨bytes, hash⟩, hwrite, -⟩ := isOkAnd_iff.mp writeSegment_steadyEvent
  refine ⟨bytes, hash, hwrite, ?_, ?_⟩
  · exact bisect_flake_classified hwrite (by decide) (p := 2) (by decide) (by decide) rfl 5
      (by decide +kernel) (by decide +kernel) bareIdentity hash
  · exact bisect_flake_classified hwrite (by decide) (p := 10) (by decide) (by decide) rfl 5
      (by decide +kernel) (by decide +kernel) bareIdentity hash

end ReplayRenderer
