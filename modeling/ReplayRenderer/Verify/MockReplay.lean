import ReplayRenderer.Verify.Replay

/-!
The mock's replays of a recording. A side without a fold is the script's
timeline. On a skewed recording the oracle is the recorded one, and an honest
replay runs to the end and diverges.
-/

namespace ReplayRenderer

open Lib Lib.Outcome

/-! ### A recording -/

section Recording

variable {blake3 : Bytes → Bytes32} {spec : SegmentSpec} {segment : DhilogSegment} {hash : Bytes32}
  (hw : Recorded blake3 spec segment hash)

include hw

theorem Recorded.applies : Applies segment (spec.recordList blake3) where
  records := hw.records
  applicable := by
    rw [hw.endIcount]
    exact (replayable_recordList hw.valid).applicable
  bound := by
    rw [hw.endIcount]
    exact hw.valid.bound

theorem Recorded.seed_eq : segment.seed blake3 = spec.seed blake3 := by
  rw [DhilogSegment.seed, hw.config, hw.base, SegmentSpec.seed]

theorem simTo_script {defect : InjectedDefect} {side : Side} {index : UInt32} {stop : Nat}
    (hdone : (defect.foldFor side index).done = true) (hstop : stop ≤ spec.endIcount.toNat) :
    simTo blake3 defect segment stop side index =
      .ok (guestAt blake3 (spec.seed blake3) spec.timeline stop) := by
  rw [hw.applies.simTo defect side index (by rwa [hw.endIcount]), hw.seed_eq,
    VirtualFold.into_done hdone, flatMap_folds_recordList hw.valid]

variable {opts : VerifyOpts} {s : HvState (MockHypervisor blake3)}

theorem replayTimeline_script
    (hdone : (s.hv.defect.foldFor (.replayed s.hv.runs) opts.segmentIndex).done = true) :
    replayTimeline s.hv.defect (.replayed s.hv.runs) opts.segmentIndex (spec.recordList blake3) =
      spec.timeline := by
  rw [replayTimeline, VirtualFold.into_done hdone, flatMap_folds_recordList hw.valid]

theorem replayHash_script
    (hdone : (s.hv.defect.foldFor (.replayed s.hv.runs) opts.segmentIndex).done = true) :
    replayHash blake3 s.hv.defect segment (.replayed s.hv.runs) opts.segmentIndex
        (spec.recordList blake3) =
      (guestAt blake3 (spec.seed blake3) spec.timeline spec.endIcount.toNat).chainValue blake3 := by
  rw [replayHash, replayTimeline_script hw hdone, hw.seed_eq, hw.endIcount]

variable (opts) in
/-- A call with a run to spend replays the script against the recorded
epochs. -/
theorem verifySegment_replay (hlt : s.budget.used < s.budget.maxRuns) :
    VerifyEnd segment (spec.recordList blake3)
      (epochsOf blake3 (spec.seed blake3) spec.recording spec.epochCount) opts s hlt
      (HypervisorReplay.verifySegment spec.baseSnapshotId segment opts s) := by
  rw [← hw.base]
  exact hw.applies.verifySegment (recordedEpochs_recordList hw.valid) opts s hlt

theorem wellFormed_recordList : ∀ r ∈ spec.recordList blake3, ¬r.MalformedEpoch := by
  intro r hr hbad
  exact hbad.2.2 ((replayable_recordList hw.valid).epochs r hr hbad.1 hbad.2.1)

/-- The replay of a skewed recording does not come to its hash. -/
theorem replayHash_ne {at_ : UInt64} (hskew : spec.skewAt = some at_)
    (hfree : CollisionFree blake3 (spec.seed blake3) spec.endIcount.toNat spec.timeline
      (spec.recorded at_))
    (hchange : fnvFold (register (before at_.toNat spec.timeline)) skewFold ≠
      register (before at_.toNat spec.timeline))
    (hdone : (s.hv.defect.foldFor (.replayed s.hv.runs) opts.segmentIndex).done = true) :
    replayHash blake3 s.hv.defect segment (.replayed s.hv.runs) opts.segmentIndex
      (spec.recordList blake3) ≠ segment.header.endStateHash := by
  rw [replayHash_script hw hdone, hw.endStateHash, hw.hash_eq, SegmentSpec.recording, hskew]
  intro heq
  have hlt := (chainValue_eq_iff hw.valid.timed hchange hfree (le_refl _)).mp heq
  exact absurd (UInt64.le_iff_toNat_le.mp (hw.valid.skew_le at_ hskew)) (not_le.mpr hlt)

theorem verifySegment_of_skew {at_ : UInt64} (hskew : spec.skewAt = some at_)
    (hfree : CollisionFree blake3 (spec.seed blake3) spec.endIcount.toNat spec.timeline
      (spec.recorded at_))
    (hchange : fnvFold (register (before at_.toNat spec.timeline)) skewFold ≠
      register (before at_.toNat spec.timeline))
    (hdone : (s.hv.defect.foldFor (.replayed s.hv.runs) opts.segmentIndex).done = true)
    (hlt : s.budget.used < s.budget.maxRuns) :
    ∃ events, HypervisorReplay.verifySegment spec.baseSnapshotId segment opts s =
      reportDivergence s.hv.defect segment opts s.hv.runs ((spec.recordList blake3).map framed)
        (s.afterRun hlt events) := by
  have hcall := verifySegment_replay hw opts hlt
  generalize hresult : HypervisorReplay.verifySegment spec.baseSnapshotId segment opts s = result
    at hcall
  cases hcall with
  | verified hwell hagrees hhash =>
      exact absurd hhash (replayHash_ne hw hskew hfree hchange hdone)
  | diverged hbad => exact ⟨_, rfl⟩
  | malformed hbad =>
      obtain ⟨r, hr, hbad⟩ := hbad
      exact absurd hbad (wellFormed_recordList hw r hr)

end Recording

/-! ### A skewed recording -/

section Skewed

variable {blake3 : Bytes → Bytes32} {spec : SegmentSpec} {at_ : UInt64} {segment : DhilogSegment}
  {hash : StateHash} (hw : SkewedAs blake3 spec at_ segment hash) {index segmentIndex : UInt32}

include hw

theorem simTo_replayed {stop runIndex : Nat} (hstop : stop ≤ spec.endIcount.toNat) :
    simTo blake3 (.recordedSkew index at_) segment stop (.replayed runIndex) segmentIndex =
      .ok (guestAt blake3 (spec.seed blake3) spec.timeline stop) :=
  simTo_script hw.toRecorded rfl hstop

theorem simTo_recorded {stop : Nat} (hstop : stop ≤ spec.endIcount.toNat) :
    simTo blake3 (.recordedSkew index at_) segment stop .recorded index =
      .ok (guestAt blake3 (spec.seed blake3) (spec.recorded at_) stop) := by
  have hfold : InjectedDefect.foldFor (.recordedSkew index at_) .recorded index =
      ⟨at_.toNat, skewFold, false⟩ := if_pos rfl
  have hpending : (⟨at_.toNat, skewFold, false⟩ : VirtualFold).done = false := rfl
  have hend : stop ≤ segment.header.endIcount.toNat := by rwa [hw.endIcount]
  rw [hw.toRecorded.applies.simTo _ _ _ hend, hw.toRecorded.seed_eq, hfold,
    VirtualFold.into_pending hpending, flatMap_folds_recordList hw.valid]
  rfl

def skewDivergence (blake3 : Bytes → Bytes32) (spec : SegmentSpec) (at_ : UInt64)
    (window : Nat × Nat) (stop : Nat) : Divergence :=
  { icountLo := window.1
    icountHi := window.2
    ripExpected := boundaryRip (UInt64.ofNat stop)
    ripActual := boundaryRip (UInt64.ofNat stop) ^^^ 0x10
    regDiff := [
      { name := "rax"
        expected := (guestAt blake3 (spec.seed blake3) (spec.recorded at_) stop).fnv
        actual := (guestAt blake3 (spec.seed blake3) spec.timeline stop).fnv }]
    diffPageIdx := [stop / mockEpochIcounts, stop / mockEpochIcounts + 1]
    suspectedCause := "mock: state register divergence at icount " ++ toString stop
    endStateHash := (guestAt blake3 (spec.seed blake3) spec.timeline
      spec.endIcount.toNat).chainValue blake3 }

/-- The diagnostics do not depend on the run. -/
theorem diagnostics_eq {window : Nat × Nat} {stop runIndex : Nat}
    (hstop : stop ≤ spec.endIcount.toNat) :
    diagnostics blake3 (.recordedSkew index at_) segment window stop index runIndex
        ((guestAt blake3 (spec.seed blake3) spec.timeline
          spec.endIcount.toNat).chainValue blake3) =
      .ok (skewDivergence blake3 spec at_ window stop) := by
  rw [diagnostics, simTo_recorded hw hstop, simTo_replayed hw hstop]
  rfl

end Skewed

end ReplayRenderer
