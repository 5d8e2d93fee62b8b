import ReplayRenderer.Verify.ReportJson
import ReplayRenderer.Verify.Stable

/-!
Bisection of a recording without epoch hashes. The flake runs agree, and without epochs
there is nothing to search: the report is the whole segment, with the end state of one
stop at its end, or of the flake runs when they have spent the budget.
-/

namespace ReplayRenderer

open Lib Lib.Outcome

/-! ### The hashes of a report -/

theorem hexBytes_injective : Function.Injective hexBytes := by
  intro a b h
  have hlen : a.bytes.length = b.bytes.length := a.length_bytes.trans b.length_bytes.symm
  have hflat := congrArg String.toList h
  rw [hexBytes_eq, hexBytes_eq] at hflat
  have hbyte : ∀ b : UInt8, (hexDigits 2 b.toNat).toList.length = 2 := by
    intro b
    rw [String.length_toList]
    exact length_hexDigits (by decide) b.toNat_lt
  have hbytes : a.bytes = b.bytes := by
    generalize a.bytes = xs at hlen hflat
    generalize b.bytes = ys at hlen hflat
    induction xs generalizing ys with
    | nil => exact (List.eq_nil_of_length_eq_zero hlen.symm).symm
    | cons x xs ih =>
        cases ys with
        | nil => cases hlen
        | cons y ys =>
            rw [List.flatMap_cons, List.flatMap_cons] at hflat
            obtain ⟨hx, hxs⟩ := List.append_inj hflat ((hbyte x).trans (hbyte y).symm)
            have hvalue := hexDigits_injective 2 (String.toList_inj.mp hx)
            rw [UInt8.toNat_inj.mp hvalue, ih ys (Nat.succ.inj hlen) hxs]
  exact Bytes32.ext hbytes

theorem b3Hex_injective : Function.Injective b3Hex := by
  intro a b h
  have hlist := congrArg String.toList h
  rw [b3Hex, b3Hex, String.toList_append, String.toList_append] at hlist
  exact hexBytes_injective (String.toList_inj.mp (List.append_cancel_left hlist))

/-! ### The driver -/

section Driver

variable {blake3 : Bytes → Bytes32} {segment : DhilogSegment} {rs : List Record}
  {defect : InjectedDefect}

/-- The end state: of one stop at the end, or without a run for it what phase 1 has seen. -/
theorem Applies.endState_clean (ha : Applies segment rs) (hclean : defect.ReplaysClean)
    {phase1Diverged : Option Divergence} (index : UInt32)
    (hphase1 : ∀ d ∈ phase1Diverged,
      d.endStateHash = replayHash blake3 defect segment (.replayed 0) index rs)
    {s : HvState (MockHypervisor blake3)} (hs : s.hv.defect = defect) :
    ∃ actual s', endState segment.header.baseSnapshotId segment phase1Diverged s =
        (.ok (actual, []), s') ∧
      RunsLater (min 1 s.budget.remaining) s s' ∧
      (phase1Diverged ≠ none ∨ s.budget.remaining ≠ 0 →
        actual = replayHash blake3 defect segment (.replayed 0) index rs) := by
  rw [endState, Proc.bind_apply_ok (Proc.gets_apply _ s)]
  cases hleft : s.budget.remaining with
  | zero =>
      rw [if_pos (RunBudget.exhausted_iff.mpr hleft)]
      refine ⟨_, s, rfl, ⟨rfl, rfl, rfl, rfl⟩, ?_⟩
      rintro (hsome | hrun)
      · obtain ⟨d, rfl⟩ := Option.ne_none_iff_exists'.mp hsome
        exact hphase1 d rfl
      · exact absurd rfl hrun
  | succ n =>
      have hlt := RunBudget.lt_of_remaining hleft
      have hmore : ¬s.budget.exhausted = true := by
        rw [RunBudget.exhausted_iff, hleft]
        exact Nat.succ_ne_zero n
      have hstop := ha.runToIcount_end hlt
      rw [hs, replayHash_clean hclean s.hv.runs 0 0 index] at hstop
      have hattempt : (Proc.attempt (HvState.runToIcount segment.header.baseSnapshotId segment
          segment.header.endIcount.toNat) : Proc _ HvFault _) s =
            (.ok (.ok (replayHash blake3 defect segment (.replayed 0) index rs)),
              s.afterRun hlt s.events) := by
        rw [Proc.attempt, hstop]
      rw [if_neg hmore, Proc.bind_apply_ok hattempt, Nat.min_eq_left (Nat.succ_pos n)]
      exact ⟨_, _, rfl, runsLater_afterRun hlt s.events, fun _ => rfl⟩

end Driver

/-! ### From the writer to the report -/

/-- A report of a whole segment, after `opts.phase1Runs` flake runs as far as the budget goes
and one stop: no diagnostics of a native bisection, and the pages that the flake runs gave. -/
structure ReportsWhole (spec : SegmentSpec) (opts : BisectOptions) (report : DivergenceReport) :
    Prop where
  classification : report.classification = .recordedDivergence
  covers_iff : ∀ icount, report.Covers icount ↔ icount ≤ spec.endIcount.toNat
  undiagnosed : report.ripExpected = none ∧ report.ripActual = none ∧ report.regDiff = none ∧
    report.suspectedCause = none
  pages : report.diffPageIdx =
    if min opts.phase1Runs opts.maxRuns = 0 then none else some (pagesAt spec.endIcount.toNat)
  hashes_ne : 0 < opts.maxRuns → report.expectedHash ≠ report.actualHash
  runsUsed : report.runsUsed = min (opts.phase1Runs + 1) opts.maxRuns
  exhausted_iff : report.budgetExhausted = true ↔ opts.maxRuns ≤ opts.phase1Runs + 1
  runFaults : report.runFaults = []

section Written

variable {blake3 : Bytes → Bytes32} {spec : SegmentSpec} {segment : DhilogSegment}
  {hash : Bytes32} {identity : BisectIdentity}

theorem findSome_replicate_diverged (n : Nat) (d : Divergence) :
    (List.replicate n (SegmentOutcome.diverged d)).findSome? SegmentOutcome.divergence =
      if n = 0 then none else some d := by
  cases n with
  | zero => rfl
  | succ n => rfl

theorem WrittenAs.unhashed (hw : WrittenAs blake3 spec segment hash)
    (homit : spec.omitEpochHashes = true) : segment.header.flags &&& flagEpochHashes = 0 := by
  obtain ⟨endVns, hheader⟩ := hw.header
  rw [hheader]
  simp only [SegmentSpec.header, SegmentSpec.flags, homit, if_true]
  decide

/-- A skew that the chain does not collide on is recorded as another end. -/
theorem WrittenAs.endOf_ne_hash {at_ : UInt64} (hw : WrittenAs blake3 spec segment hash)
    (hskew : spec.skewAt = some at_)
    (hfree : CollisionFree blake3 (spec.seed blake3) spec.endIcount.toNat spec.timeline
      (spec.recorded at_))
    (hchange : fnvFold (register (before at_.toNat spec.timeline)) skewFold ≠
      register (before at_.toNat spec.timeline)) :
    spec.endOf blake3 spec.timeline ≠ hash := by
  have hrecorded : hash = spec.endOf blake3 (spec.recorded at_) := by
    rw [hw.hash_eq, SegmentSpec.recording, hskew]
    rfl
  rw [hrecorded]
  exact endOf_withFold_ne hw.valid (hw.valid.skew_le at_ hskew) hchange hfree

/-- Bisection of a skewed recording that was written without its epoch hashes blames the
recording, whatever the budget, and reports the whole segment with what one stop at its
end adds to the flake runs. -/
theorem bisect_unhashed {ε : Type} {bytes : Bytes} {at_ : UInt64}
    (hwrite : (writeSegment blake3 spec : Outcome ε _) = .ok (bytes, hash))
    (homit : spec.omitEpochHashes = true) (hskew : spec.skewAt = some at_)
    (hfree : CollisionFree blake3 (spec.seed blake3) spec.endIcount.toNat spec.timeline
      (spec.recorded at_))
    (hchange : fnvFold (register (before at_.toNat spec.timeline)) skewFold ≠
      register (before at_.toNat spec.timeline))
    (mock : MockHypervisor blake3) (hclean : mock.defect.ReplaysClean)
    (identity : BisectIdentity) (opts : BisectOptions) :
    ∃ segment report mock', DhilogSegment.parse bytes = .ok segment ∧
      bisect spec.baseSnapshotId segment hash identity opts mock = (.ok report, mock') ∧
      ReportsWhole spec opts report ∧ mock'.runs = mock.runs + report.runsUsed := by
  obtain ⟨segment, hparse, hw⟩ := writtenAs_of_writeSegment hwrite
  have hend : replayHash blake3 mock.defect segment (.replayed 0) identity.segmentIndex
      (spec.recordList blake3) = spec.endOf blake3 spec.timeline := by
    rw [replayHash_recorded hw.toRecorded, timeline_of_replaysClean hclean]
  have hne := hw.endOf_ne_hash hskew hfree hchange
  -- every flake run diverges, and only at the end: there is no epoch to compare
  obtain ⟨outcome, hcall, hdHash, hdiverged⟩ := hw.applies.verifySegment_sameFold blake3
    (wellFormed_recordList hw.toRecorded) mock.defect 0
    { bisectOnDivergence := false, segmentIndex := identity.segmentIndex } rfl
  obtain ⟨d, rfl, hdPages⟩ := hdiverged (by rw [hdHash, hend, hw.endStateHash]; exact hne)
  obtain ⟨s, hphases, hs⟩ := bisectPhases_same mock
    (fun run => mock.defect.SameFold identity.segmentIndex run 0) hash opts hcall
    (fun i _ => hclean.sameFold identity.segmentIndex (mock.runs + i) 0)
  have hphase1 : ∀ d' ∈ (if min opts.phase1Runs opts.maxRuns = 0 then none else some d),
      d'.endStateHash = replayHash blake3 mock.defect segment (.replayed 0) identity.segmentIndex
        (spec.recordList blake3) := by
    intro d' hd'
    obtain ⟨-, hd'⟩ := Option.ite_none_left_eq_some.mp hd'
    obtain rfl := Option.some.inj hd'
    exact hdHash
  obtain ⟨actual, s', hstate, hs', hactual⟩ :=
    hw.applies.endState_clean hclean identity.segmentIndex hphase1 hs.defect
  have hremaining : s.budget.remaining = opts.maxRuns - min opts.phase1Runs opts.maxRuns := by
    rw [RunBudget.remaining, hs.used, hs.maxRuns]
    exact congrArg (opts.maxRuns - ·) (Nat.zero_add _)
  have hused : s'.budget.used = min (opts.phase1Runs + 1) opts.maxRuns := by
    rw [hs'.used, hs.used, hremaining]
    change 0 + min opts.phase1Runs opts.maxRuns + _ = _
    omega
  have hmax : s'.budget.maxRuns = opts.maxRuns := hs'.maxRuns.trans hs.maxRuns
  have hreport : bisect spec.baseSnapshotId segment hash identity opts mock =
      (.ok { makeReport identity .recordedDivergence (0, segment.header.endIcount.toNat) none
          hash actual s'.budget.used s'.budget.exhausted [] with
        diffPageIdx := (if min opts.phase1Runs opts.maxRuns = 0 then none else some d).map
          Divergence.diffPageIdx }, s'.hv) := by
    rw [bisect, ← hw.base, hphases, phase2, Proc.bind_apply_ok (Proc.gets_apply _ s),
      if_neg (fun h => h.1 (hw.unhashed homit)), findSome_replicate_diverged, endStateDiff,
      Proc.bind_apply_ok hstate]
    rfl
  refine ⟨segment, _, s'.hv, hparse, hreport, ⟨rfl, ?_, ⟨rfl, rfl, rfl, rfl⟩, ?_, ?_, hused, ?_,
    rfl⟩, ?_⟩
  · intro icount
    rw [covers_with_diffPageIdx, covers_makeReport, hw.endIcount]
    exact and_iff_right (Nat.zero_le icount)
  · rw [← hw.endIcount, ← hdPages]
    split <;> rfl
  · -- with a run to spend, a flake run or the stop has come to the end of the script
    intro hpos heq
    have hcame : actual = spec.endOf blake3 spec.timeline := by
      rw [hactual, hend]
      rw [hremaining]
      by_cases hflakes : min opts.phase1Runs opts.maxRuns = 0
      · exact .inr (by omega)
      · exact .inl (by rw [if_neg hflakes]; exact Option.some_ne_none d)
    exact hne (hcame.symm.trans (b3Hex_injective heq).symm)
  · change decide (s'.budget.maxRuns ≤ s'.budget.used) = true ↔ _
    rw [decide_eq_true_eq, hused, hmax]
    omega
  · change s'.hv.runs = mock.runs + s'.budget.used
    rw [hs'.runs, hs.runs, hused, hremaining]
    change mock.runs + min opts.phase1Runs opts.maxRuns + _ = _
    omega

end Written

def unhashedEvent : SegmentSpec := { oneEvent 3 2 with omitEpochHashes := true }

theorem writeSegment_unhashedEvent :
    isOkAnd (fun _ => true) (writeSegment Blake3.hash unhashedEvent : Outcome HvFault _) =
      true := by
  decide +kernel

theorem bisect_unhashed_unhashedEvent :
    ∃ bytes hash, (writeSegment Blake3.hash unhashedEvent : Outcome HvFault _) =
        .ok (bytes, hash) ∧
      ∃ segment report mock', DhilogSegment.parse bytes = .ok segment ∧
        bisect unhashedEvent.baseSnapshotId segment hash bareIdentity { maxRuns := 9 }
            (MockHypervisor.new Blake3.hash (.recordedSkew 1 2)) = (.ok report, mock') ∧
        ReportsWhole unhashedEvent { maxRuns := 9 } report ∧
        mock'.runs = 0 + report.runsUsed := by
  obtain ⟨⟨bytes, hash⟩, hwrite, -⟩ := isOkAnd_iff.mp writeSegment_unhashedEvent
  exact ⟨bytes, hash, hwrite, bisect_unhashed hwrite rfl rfl collisionFree_oneEvent
    skewFold_oneEvent (MockHypervisor.new Blake3.hash (.recordedSkew 1 2)) trivial bareIdentity
    { maxRuns := 9 }⟩

end ReplayRenderer
