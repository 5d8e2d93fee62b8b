import ReplayRenderer.Verify.Safety
import ReplayRenderer.Verify.Skew

/-!
A replay that is not deterministic. A flake run goes through the segment with
the fold of its number in it, and two different folds come to two different
end hashes. Among more runs than the period there are two with different
folds, so the runs of phase 1 cannot all have one outcome.
-/

namespace ReplayRenderer

open Lib Lib.Outcome

/-! ### The runs of phase 1 -/

/-- What a run without native bisection comes to: the end hash of its replay,
and the whole segment where it diverges. -/
structure WholeRun (blake3 : Bytes → Bytes32) (defect : InjectedDefect) (segment : DhilogSegment)
    (rs : List Record) (index : UInt32) (run : Nat) (outcome : SegmentOutcome) : Prop where
  endStateHash_eq : outcome.endStateHash =
    replayHash blake3 defect segment (.replayed run) index rs
  window_eq : ∀ window ∈ outcome.window, window = (0, segment.header.endIcount.toNat)

section Runs

variable {blake3 : Bytes → Bytes32} {segment : DhilogSegment} {rs : List Record}
  (ha : Applies segment rs) (hwell : ∀ r ∈ rs, ¬r.MalformedEpoch)

include ha hwell

theorem Applies.verifySegment_whole (opts : VerifyOpts) (hopts : opts.bisectOnDivergence = false)
    (s : HvState (MockHypervisor blake3)) (hlt : s.budget.used < s.budget.maxRuns) :
    ∃ outcome events,
      HypervisorReplay.verifySegment segment.header.baseSnapshotId segment opts s =
        (.ok outcome, s.afterRun hlt events) ∧
      WholeRun blake3 s.hv.defect segment rs opts.segmentIndex s.hv.runs outcome := by
  obtain ⟨epochs, hepochs, -⟩ := exists_recordedEpochs (ε := HvFault) rs
  have hcall := ha.verifySegment hepochs opts s hlt
  generalize HypervisorReplay.verifySegment segment.header.baseSnapshotId segment opts s = result
    at hcall ⊢
  cases hcall with
  | malformed hbad =>
      obtain ⟨r, hr, hbad⟩ := hbad
      exact absurd hbad (hwell r hr)
  | verified hwell hagrees hhash => exact ⟨_, _, rfl, rfl, by simp [SegmentOutcome.window]⟩
  | @diverged events hbad =>
      obtain ⟨d, hreport, hhash, hwindow⟩ := ha.reportDivergence_whole s.hv.defect s.hv.runs
        (s.afterRun hlt events) hopts
      refine ⟨.diverged d, events, hreport, hhash, ?_⟩
      rintro window ⟨⟩
      exact hwindow

variable {identity : BisectIdentity}

variable (identity) in
/-- With budget for all of them, `k` more runs, one after the other. -/
theorem Applies.phase1Runs (k : Nat) :
    ∀ (outcomes : List SegmentOutcome) (s : HvState (MockHypervisor blake3)),
      s.budget.used + k ≤ s.budget.maxRuns →
      ∃ more s', ReplayRenderer.phase1Runs segment.header.baseSnapshotId segment identity k
          outcomes s = (.ok (outcomes ++ more), s') ∧
        List.Forall₂ (WholeRun blake3 s.hv.defect segment rs identity.segmentIndex)
          (List.range' s.hv.runs k) more ∧
        s'.budget.used = s.budget.used + k := by
  induction k with
  | zero =>
      intro outcomes s _
      refine ⟨[], s, ?_, .nil, rfl⟩
      rw [ReplayRenderer.phase1Runs, List.append_nil, Proc.pure_apply]
  | succ k ih =>
      intro outcomes s hle
      have hlt : s.budget.used < s.budget.maxRuns := by omega
      have hmore : ¬s.budget.exhausted = true := by
        simp only [RunBudget.exhausted, decide_eq_true_eq]
        omega
      obtain ⟨outcome, events, hcall, houtcome⟩ := ha.verifySegment_whole hwell
        { bisectOnDivergence := false, segmentIndex := identity.segmentIndex } rfl s hlt
      obtain ⟨more, s', hrest, hruns, hused⟩ := ih (outcomes ++ [outcome]) (s.afterRun hlt events)
        (by rw [used_afterRun, maxRuns_afterRun]; omega)
      refine ⟨outcome :: more, s', ?_, ?_, ?_⟩
      · rw [ReplayRenderer.phase1Runs, Proc.bind_apply_ok (Proc.gets_apply _ s), if_neg hmore,
          Proc.bind_apply_ok hcall, hrest, List.append_assoc, List.singleton_append]
      · rw [List.range'_succ]
        exact .cons houtcome hruns
      · rw [hused, used_afterRun]
        omega

end Runs

/-! ### The verdict -/

theorem minWindow_of_forall_eq {window : Nat × Nat} (hle : window.1 ≤ window.2) :
    ∀ {windows : List (Nat × Nat)}, (∀ w ∈ windows, w = window) →
      ∃ found, minWindow windows = .ok found ∧ found.getD window = window
  | [], _ => ⟨none, rfl, rfl⟩
  | w :: windows, h => by
      obtain ⟨rfl, hrest⟩ := List.forall_mem_cons.mp h
      obtain ⟨found, hfound, hget⟩ := minWindow_of_forall_eq hle hrest
      refine ⟨some w, ?_, rfl⟩
      rw [minWindow, u64Sub_of_le hle, ok_bind, hfound, ok_bind]
      cases found with
      | none => rfl
      | some w' =>
          obtain rfl : w' = w := hget
          simp only [lt_irrefl, if_false, pure_eq]

/-- Outcomes that do not all agree and leave the whole segment are reported
with it. -/
theorem reportNondeterministic_whole {σ : Type} [HypervisorReplay σ] {segment : DhilogSegment}
    (expected : StateHash) (identity : BisectIdentity) {outcomes : List SegmentOutcome}
    (hne : outcomes ≠ [])
    (hwindow : ∀ o ∈ outcomes, ∀ window ∈ o.window,
      window = (0, segment.header.endIcount.toNat)) (s : HvState σ) :
    ∃ report, reportNondeterministic segment expected identity outcomes s = (.ok report, s) ∧
      report.classification = .replayNondeterministic ∧
      report.runsUsed = s.budget.used ∧
      report.icountWindow = some { from_ := 0, to_ := segment.header.endIcount.toNat } := by
  have hall : ∀ w ∈ outcomes.filterMap SegmentOutcome.window,
      w = (0, segment.header.endIcount.toNat) := by
    intro w hw
    obtain ⟨o, ho, hw⟩ := List.mem_filterMap.mp hw
    exact hwindow o ho w hw
  obtain ⟨found, hfound, hget⟩ := minWindow_of_forall_eq (Nat.zero_le _) hall
  have hreport : reportNondeterministic segment expected identity outcomes s =
      (.ok (makeReport identity .replayNondeterministic (0, segment.header.endIcount.toNat) none
        expected (outcomes.getLast hne).endStateHash s.budget.used s.budget.exhausted []), s) := by
    rw [reportNondeterministic, Proc.lift_bind_apply hfound, List.getLast?_eq_some_getLast hne,
      Proc.lift_bind_apply (expect_some _), Proc.bind_apply_ok (Proc.gets_apply _ s),
      Proc.pure_apply, hget]
  exact ⟨_, hreport, rfl, rfl, by simp [makeReport]⟩

/-! ### A flake -/

def flakeFold (value : Nat) : Bytes := utf8 "mock-flake" ++ leBytes 8 value

def SegmentSpec.flaked (spec : SegmentSpec) (at_ : UInt64) (value : Nat) : List Moment :=
  withFold at_.toNat (flakeFold value) spec.timeline

def flakeValues (runs retries period : Nat) : List Nat :=
  (List.range' runs (retries + 1)).map fun run => run / period

theorem mem_flakeValues (runs p : Nat) {retries i : Nat} (hi : i ≤ retries) :
    (runs + i) / p ∈ flakeValues runs retries p := by
  refine List.mem_map_of_mem (f := fun run => run / p) ?_
  rw [List.mem_range'_1]
  omega

section Flake

variable {blake3 : Bytes → Bytes32} {spec : SegmentSpec} {segment : DhilogSegment} {hash : Bytes32}
  {index : UInt32} {at_ : UInt64} {period : UInt32}

variable (index) in
/-- The end hash of a flake run: of the script with its flake. -/
theorem replayHash_flake (hw : Recorded blake3 spec segment hash) (run : Nat) :
    replayHash blake3 (.replayNondet index at_ period) segment (.replayed run) index
        (spec.recordList blake3) =
      blake3 (stateInput blake3 (spec.seed blake3) (spec.flaked at_ (run / max period.toNat 1))
        spec.endIcount.toNat) := by
  have hfold : InjectedDefect.foldFor (.replayNondet index at_ period) (.replayed run) index =
      ⟨at_.toNat, flakeFold (run / max period.toNat 1), false⟩ := if_pos rfl
  have hpending : (⟨at_.toNat, flakeFold (run / max period.toNat 1), false⟩ :
      VirtualFold).done = false := rfl
  rw [replayHash, replayTimeline, hfold, VirtualFold.into_pending hpending,
    flatMap_folds_recordList hw.valid, hw.seed_eq, hw.endIcount, chainValue_guestAt,
    SegmentSpec.flaked]

theorem value_eq_of_stateInput {value value' : Nat} (hat : at_ ≤ spec.endIcount)
    (hregister : fnvFold (register (before at_.toNat spec.timeline)) (flakeFold value) =
        fnvFold (register (before at_.toNat spec.timeline)) (flakeFold value') → value = value')
    (heq : stateInput blake3 (spec.seed blake3) (spec.flaked at_ value) spec.endIcount.toNat =
      stateInput blake3 (spec.seed blake3) (spec.flaked at_ value') spec.endIcount.toNat) :
    value = value' := by
  have hlt : at_.toNat < spec.endIcount.toNat + 1 :=
    Nat.lt_succ_of_le (UInt64.le_iff_toNat_le.mp hat)
  exact hregister (fnvFold_eq_of_register_withFold hlt (register_eq_of_append heq))

/-- Runs with two flake values do not have one outcome. -/
theorem outcomes_differ (hw : Recorded blake3 spec segment hash) (hat : at_ ≤ spec.endIcount)
    {p : Nat} (hp : p = max period.toNat 1) {runs retries i : Nat} (hi : i ≤ retries)
    (hne : (runs + i) / p ≠ runs / p)
    (hregister : ∀ v ∈ flakeValues runs retries p, ∀ v' ∈ flakeValues runs retries p,
      fnvFold (register (before at_.toNat spec.timeline)) (flakeFold v) =
        fnvFold (register (before at_.toNat spec.timeline)) (flakeFold v') → v = v')
    (hfree : ∀ v ∈ flakeValues runs retries p, ∀ v' ∈ flakeValues runs retries p,
      blake3 (stateInput blake3 (spec.seed blake3) (spec.flaked at_ v) spec.endIcount.toNat) =
          blake3 (stateInput blake3 (spec.seed blake3) (spec.flaked at_ v')
            spec.endIcount.toNat) →
        stateInput blake3 (spec.seed blake3) (spec.flaked at_ v) spec.endIcount.toNat =
          stateInput blake3 (spec.seed blake3) (spec.flaked at_ v') spec.endIcount.toNat)
    {outcomes : List SegmentOutcome}
    (hwhole : List.Forall₂ (WholeRun blake3 (.replayNondet index at_ period) segment
      (spec.recordList blake3) index) (List.range' runs (retries + 1)) outcomes) :
    ¬allIdentical outcomes = true := by
  have hlen : outcomes.length = retries + 1 := by
    rw [← hwhole.length_eq, List.length_range']
  -- the outcome of each run has the end hash of its flake
  have hhash : ∀ j ≤ retries, ∃ o ∈ outcomes, o.endStateHash =
      blake3 (stateInput blake3 (spec.seed blake3) (spec.flaked at_ ((runs + j) / p))
        spec.endIcount.toNat) := by
    intro j hj
    have hlt : j < outcomes.length := by omega
    have hrun := hwhole.get (by rw [List.length_range']; omega) hlt
    refine ⟨_, List.get_mem outcomes ⟨j, hlt⟩, ?_⟩
    rw [hrun.endStateHash_eq, replayHash_flake index hw, List.get_eq_getElem, List.getElem_range',
      Nat.one_mul, hp]
  have hmem := mem_flakeValues runs p hi
  have hmem₀ := mem_flakeValues runs p (Nat.zero_le retries)
  intro hall
  obtain ⟨o, ho, hoHash⟩ := hhash i hi
  obtain ⟨o₀, ho₀, hoHash₀⟩ := hhash 0 (Nat.zero_le _)
  obtain rfl := allIdentical_eq_true.mp hall o ho o₀ ho₀
  have hinput := hfree _ hmem _ hmem₀ (hoHash.symm.trans hoHash₀)
  exact hne (value_eq_of_stateInput hat (hregister _ hmem _ hmem₀) hinput)

end Flake

/-- Where the runs of phase 1 do not all have one outcome, that is reported, with
the whole segment. -/
theorem Recorded.bisect_differing {blake3 : Bytes → Bytes32} {spec : SegmentSpec}
    {segment : DhilogSegment} {hash : Bytes32} (hw : Recorded blake3 spec segment hash)
    (mock : MockHypervisor blake3) {opts : BisectOptions}
    (hmax : opts.flakeRetries + 1 ≤ opts.maxRuns) (hphase1 : opts.skipPhase1 = false)
    (identity : BisectIdentity) (expected : StateHash)
    (hdiffer : ∀ outcomes, List.Forall₂ (WholeRun blake3 mock.defect segment
      (spec.recordList blake3) identity.segmentIndex)
        (List.range' mock.runs (opts.flakeRetries + 1)) outcomes →
      ¬allIdentical outcomes = true) :
    ∃ report mock', bisect spec.baseSnapshotId segment expected identity opts mock =
        (.ok report, mock') ∧
      report.classification = .replayNondeterministic ∧
      report.runsUsed = opts.flakeRetries + 1 ∧
      report.icountWindow = some { from_ := 0, to_ := spec.endIcount.toNat } := by
  have hbudget : (RunBudget.new opts.maxRuns).used + (opts.flakeRetries + 1) ≤
      (RunBudget.new opts.maxRuns).maxRuns := (Nat.zero_add _).le.trans hmax
  obtain ⟨outcomes, s', hruns, hwhole, hused⟩ := hw.applies.phase1Runs (wellFormed_recordList hw)
    identity (opts.flakeRetries + 1) [] ⟨mock, RunBudget.new opts.maxRuns, []⟩ hbudget
  have hne : outcomes ≠ [] := by
    apply List.ne_nil_of_length_eq_add_one (n := opts.flakeRetries)
    rw [← hwhole.length_eq, List.length_range']
  have hwindow : ∀ o ∈ outcomes, ∀ window ∈ o.window,
      window = (0, segment.header.endIcount.toNat) :=
    (forall_iff_of_forall₂ hwhole fun run _ o ho => ⟨fun _ => ho.window_eq, fun _ => trivial⟩).mp
      fun run _ => trivial
  obtain ⟨report, hreport, hclass, hcount, hwin⟩ :=
    reportNondeterministic_whole expected identity hne hwindow s'
  refine ⟨report, s'.hv, ?_, hclass, ?_, ?_⟩
  · rw [hw.base, List.nil_append] at hruns
    rw [bisect, bisectPhases, if_neg (by rw [hphase1]; exact Bool.false_ne_true),
      Proc.bind_apply_ok hruns, if_neg (hdiffer outcomes hwhole), hreport]
  · rw [hcount, hused]
    exact Nat.zero_add _
  · rw [hwin, hw.endIcount]

/-- Phase 1 catches every flake whose period is no longer than the retries,
whatever the mock has run before: of any segment that the writer accepts, as
long as the flake values of the runs come to different registers, and the hash
tells the end states apart. -/
theorem bisect_catches_flake {blake3 : Bytes → Bytes32} {ε : Type} {spec : SegmentSpec}
    {bytes : Bytes} {hash : StateHash}
    (hwrite : (writeSegment blake3 spec : Outcome ε _) = .ok (bytes, hash)) {at_ : UInt64}
    (hat : at_ ≤ spec.endIcount) {period : UInt32} {opts : BisectOptions}
    (hpos : 1 ≤ period.toNat) (hperiod : period.toNat ≤ opts.flakeRetries)
    (hmax : opts.flakeRetries + 1 ≤ opts.maxRuns) (hphase1 : opts.skipPhase1 = false) (runs : Nat)
    (hregister : ∀ v ∈ flakeValues runs opts.flakeRetries period.toNat,
      ∀ v' ∈ flakeValues runs opts.flakeRetries period.toNat,
        fnvFold (register (before at_.toNat spec.timeline)) (flakeFold v) =
          fnvFold (register (before at_.toNat spec.timeline)) (flakeFold v') → v = v')
    (hfree : ∀ v ∈ flakeValues runs opts.flakeRetries period.toNat,
      ∀ v' ∈ flakeValues runs opts.flakeRetries period.toNat,
        blake3 (stateInput blake3 (spec.seed blake3) (spec.flaked at_ v) spec.endIcount.toNat) =
            blake3 (stateInput blake3 (spec.seed blake3) (spec.flaked at_ v')
              spec.endIcount.toNat) →
          stateInput blake3 (spec.seed blake3) (spec.flaked at_ v) spec.endIcount.toNat =
            stateInput blake3 (spec.seed blake3) (spec.flaked at_ v') spec.endIcount.toNat)
    (identity : BisectIdentity) (expected : StateHash) :
    ∃ segment report mock', DhilogSegment.parse bytes = .ok segment ∧
      bisect spec.baseSnapshotId segment expected identity opts
          (⟨.replayNondet identity.segmentIndex at_ period, runs⟩ : MockHypervisor blake3) =
        (.ok report, mock') ∧
      report.classification = .replayNondeterministic ∧
      report.runsUsed = opts.flakeRetries + 1 ∧ mock'.runs = runs + opts.flakeRetries + 1 ∧
      ∃ window, report.icountWindow = some window ∧
        window.from_ ≤ at_.toNat ∧ at_.toNat ≤ window.to_ := by
  obtain ⟨segment, hparse, hw⟩ := writtenAs_of_writeSegment hwrite
  have hp : period.toNat = max period.toNat 1 := (max_eq_left hpos).symm
  -- a whole period later the value is the next
  have hvalue : (runs + period.toNat) / period.toNat ≠ runs / period.toNat := by
    rw [Nat.add_div_right _ hpos]
    exact Nat.succ_ne_self _
  obtain ⟨report, mock', hbisect, hclass, hused, hwindow⟩ := hw.toRecorded.bisect_differing
    ⟨.replayNondet identity.segmentIndex at_ period, runs⟩ hmax hphase1 identity expected
    fun _ => outcomes_differ hw.toRecorded hat hp hperiod hvalue hregister hfree
  have hmock : mock'.runs = runs + report.runsUsed := (counts_of_bisect hbisect).1
  refine ⟨segment, report, mock', hparse, hbisect, hclass, hused, ?_, _, hwindow, Nat.zero_le _,
    UInt64.le_iff_toNat_le.mp hat⟩
  rw [hmock, hused, Nat.add_assoc]

theorem writeSegment_steadyEvent :
    isOkAnd (fun _ => true) (writeSegment Blake3.hash steadyEvent : Outcome HvFault _) = true := by
  decide +kernel

/-- Five runs before, then four with three flake values. -/
theorem bisect_catches_flake_steadyEvent :
    ∃ bytes hash, (writeSegment Blake3.hash steadyEvent : Outcome HvFault _) = .ok (bytes, hash) ∧
      ∃ segment report mock', DhilogSegment.parse bytes = .ok segment ∧
        bisect steadyEvent.baseSnapshotId segment hash bareIdentity { maxRuns := 4 }
            (⟨.replayNondet bareIdentity.segmentIndex 2 2, 5⟩ : MockHypervisor Blake3.hash) =
          (.ok report, mock') ∧
        report.classification = .replayNondeterministic ∧
        report.runsUsed = 4 ∧ mock'.runs = 9 ∧
        ∃ window, report.icountWindow = some window ∧ window.from_ ≤ 2 ∧ 2 ≤ window.to_ := by
  obtain ⟨⟨bytes, hash⟩, hwrite, -⟩ := isOkAnd_iff.mp writeSegment_steadyEvent
  exact ⟨bytes, hash, hwrite, bisect_catches_flake hwrite (by decide) (by decide) (by decide)
    (by decide) rfl 5 (by decide +kernel) (by decide +kernel) bareIdentity hash⟩

end ReplayRenderer
