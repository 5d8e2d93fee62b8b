import ReplayRenderer.Verify.Agreement
import ReplayRenderer.Verify.Flaky
import ReplayRenderer.Verify.Verdict

/-!
A walk over recordings, on a mock with any defect. A run of a segment goes through
its script with the fold of the run in it, and the walk passes the segment exactly
when that timeline comes to what was recorded. So the verdict on a path is its first
segment whose run does not, and a walk does not ask whether the recording or the
replay is to blame.
-/

namespace ReplayRenderer

open Lib Lib.Outcome

/-! ### One run -/

def InjectedDefect.timeline (defect : InjectedDefect) (run : Nat) (index : UInt32)
    (spec : SegmentSpec) : List Moment :=
  (defect.foldFor (.replayed run) index).into spec.timeline

def SegmentSpec.endOf (blake3 : Bytes → Bytes32) (spec : SegmentSpec) (l : List Moment) :
    StateHash :=
  (guestAt blake3 (spec.seed blake3) l spec.endIcount.toNat).chainValue blake3

theorem SegmentSpec.endOf_eq {blake3 : Bytes → Bytes32} {spec : SegmentSpec} {l : List Moment} :
    spec.endOf blake3 l =
      blake3 (stateInput blake3 (spec.seed blake3) l spec.endIcount.toNat) :=
  chainValue_guestAt

/-- A timeline comes to what was recorded of a segment, at every epoch and at the end. -/
structure SegmentSpec.ReplayedBy (blake3 : Bytes → Bytes32) (spec : SegmentSpec)
    (l : List Moment) : Prop where
  epochs : ∀ epoch ∈ epochsOf blake3 (spec.seed blake3) spec.recording spec.epochCount,
    epoch.Agrees blake3 (spec.seed blake3) l
  endHash : spec.endOf blake3 l = spec.endOf blake3 spec.recording

section Segment

variable {blake3 : Bytes → Bytes32} {spec : SegmentSpec}

theorem timeline_of_replaysClean {defect : InjectedDefect} (h : defect.ReplaysClean) (run : Nat)
    (index : UInt32) : defect.timeline run index spec = spec.timeline := by
  rw [InjectedDefect.timeline, h.foldFor]
  exact VirtualFold.into_done rfl

theorem timeline_flake_of_ne {segment index : UInt32} (h : segment ≠ index) (at_ : UInt64)
    (period : UInt32) (run : Nat) :
    (InjectedDefect.replayNondet segment at_ period).timeline run index spec = spec.timeline := by
  have hfold : (InjectedDefect.replayNondet segment at_ period).foldFor (.replayed run) index =
      VirtualFold.none := if_neg h
  rw [InjectedDefect.timeline, hfold]
  exact VirtualFold.into_done rfl

theorem timeline_flake (index : UInt32) (at_ : UInt64) (period : UInt32) (run : Nat) :
    (InjectedDefect.replayNondet index at_ period).timeline run index spec =
      spec.flaked at_ (run / max period.toNat 1) := by
  have hfold : (InjectedDefect.replayNondet index at_ period).foldFor (.replayed run) index =
      ⟨at_.toNat, flakeFold (run / max period.toNat 1), false⟩ := if_pos rfl
  rw [InjectedDefect.timeline, hfold]
  exact VirtualFold.into_pending rfl

theorem replayedBy_of_steady (hskew : spec.skewAt = none) :
    spec.ReplayedBy blake3 spec.timeline := by
  have hrecording : spec.recording = spec.timeline := by
    rw [SegmentSpec.recording, hskew]
  constructor
  · intro epoch hepoch
    rw [hrecording] at hepoch
    exact agrees_of_mem_epochsOf hepoch
  · rw [hrecording]

/-- One fold more up to the end shows in the end hash. -/
theorem endOf_withFold_ne {at_ : UInt64} {bytes : Bytes} (hv : Recordable spec)
    (hat : at_ ≤ spec.endIcount)
    (hchange : fnvFold (register (before at_.toNat spec.timeline)) bytes ≠
      register (before at_.toNat spec.timeline))
    (hfree : CollisionFree blake3 (spec.seed blake3) spec.endIcount.toNat spec.timeline
      (withFold at_.toNat bytes spec.timeline)) :
    spec.endOf blake3 spec.timeline ≠
      spec.endOf blake3 (withFold at_.toNat bytes spec.timeline) := by
  intro heq
  have hlt := (chainValue_eq_iff hv.timed hchange hfree (le_refl _)).mp heq
  exact absurd (UInt64.le_iff_toNat_le.mp hat) (not_le.mpr hlt)

theorem not_replayedBy_of_skew {at_ : UInt64} (hv : Recordable spec)
    (hskew : spec.skewAt = some at_)
    (hfree : CollisionFree blake3 (spec.seed blake3) spec.endIcount.toNat spec.timeline
      (spec.recorded at_))
    (hchange : fnvFold (register (before at_.toNat spec.timeline)) skewFold ≠
      register (before at_.toNat spec.timeline)) :
    ¬spec.ReplayedBy blake3 spec.timeline := by
  intro hreplayed
  have hend := hreplayed.endHash
  rw [SegmentSpec.recording, hskew] at hend
  exact endOf_withFold_ne hv (hv.skew_le at_ hskew) hchange hfree hend

theorem not_replayedBy_flaked {at_ : UInt64} {value : Nat} (hv : Recordable spec)
    (hskew : spec.skewAt = none) (hat : at_ ≤ spec.endIcount)
    (hfree : CollisionFree blake3 (spec.seed blake3) spec.endIcount.toNat spec.timeline
      (spec.flaked at_ value))
    (hchange : fnvFold (register (before at_.toNat spec.timeline)) (flakeFold value) ≠
      register (before at_.toNat spec.timeline)) :
    ¬spec.ReplayedBy blake3 (spec.flaked at_ value) := by
  intro hreplayed
  have hend := hreplayed.endHash
  rw [SegmentSpec.recording, hskew] at hend
  exact endOf_withFold_ne hv hat hchange hfree hend.symm

variable {segment : DhilogSegment} {hash : Bytes32}

theorem replayTimeline_recorded (hw : Recorded blake3 spec segment hash) (defect : InjectedDefect)
    (run : Nat) (index : UInt32) :
    replayTimeline defect (.replayed run) index (spec.recordList blake3) =
      defect.timeline run index spec := by
  rw [replayTimeline, flatMap_folds_recordList hw.valid]
  rfl

theorem replayHash_recorded (hw : Recorded blake3 spec segment hash) (defect : InjectedDefect)
    (run : Nat) (index : UInt32) :
    replayHash blake3 defect segment (.replayed run) index (spec.recordList blake3) =
      spec.endOf blake3 (defect.timeline run index spec) := by
  rw [replayHash, replayTimeline_recorded hw, hw.seed_eq, hw.endIcount]
  rfl

/-- A call without bisection: the end hash of its run, and whether that replayed. -/
theorem verifySegment_judged (hw : Recorded blake3 spec segment hash) (opts : VerifyOpts)
    (hopts : opts.bisectOnDivergence = false) {s : HvState (MockHypervisor blake3)}
    (hlt : s.budget.used < s.budget.maxRuns) :
    ∃ outcome events, HypervisorReplay.verifySegment spec.baseSnapshotId segment opts s =
        (.ok outcome, s.afterRun hlt events) ∧
      outcome.endStateHash =
        spec.endOf blake3 (s.hv.defect.timeline s.hv.runs opts.segmentIndex spec) ∧
      ((∃ end_ epochsOk, outcome = .verified end_ epochsOk) ↔
        spec.ReplayedBy blake3 (s.hv.defect.timeline s.hv.runs opts.segmentIndex spec)) := by
  have htimeline := replayTimeline_recorded hw s.hv.defect s.hv.runs opts.segmentIndex
  have hend := replayHash_recorded hw s.hv.defect s.hv.runs opts.segmentIndex
  have hrecorded : segment.header.endStateHash = spec.endOf blake3 spec.recording :=
    hw.endStateHash.trans hw.hash_eq
  have hcall := verifySegment_replay hw opts hlt
  generalize HypervisorReplay.verifySegment spec.baseSnapshotId segment opts s = result at hcall ⊢
  cases hcall with
  | malformed hbad =>
      obtain ⟨r, hr, hbad⟩ := hbad
      exact absurd hbad (wellFormed_recordList hw r hr)
  | verified hwell hagrees hhash =>
      refine ⟨_, _, rfl, hend, fun _ => ?_, fun _ => ⟨_, _, rfl⟩⟩
      rw [htimeline, hw.seed_eq] at hagrees
      exact ⟨hagrees, by rw [← hend, hhash, hrecorded]⟩
  | diverged hbad =>
      obtain ⟨d, hreport, hhash, -⟩ := hw.applies.reportDivergence_whole s.hv.defect s.hv.runs
        (s.afterRun hlt _) hopts
      rw [hreport]
      refine ⟨_, _, rfl, hhash.trans hend, ?_, ?_⟩
      · rintro ⟨end_, epochsOk, heq⟩
        cases heq
      · intro hreplayed
        rw [htimeline, hw.seed_eq, hend, hrecorded] at hbad
        rcases hbad with ⟨epoch, hepoch, hne⟩ | hne
        · exact absurd (hreplayed.epochs epoch hepoch) hne
        · exact absurd hreplayed.endHash hne

end Segment

/-! ### A walk -/

section Walk

variable {blake3 : Bytes → Bytes32} {root : PathNode} {pre rest : List Edge} {spec : SegmentSpec}
  {todo : List SegmentSpec} {s : HvState (MockHypervisor blake3)}

structure RunsLater (n : Nat) (s s' : HvState (MockHypervisor blake3)) : Prop where
  defect : s'.hv.defect = s.hv.defect
  runs : s'.hv.runs = s.hv.runs + n
  used : s'.budget.used = s.budget.used + n
  maxRuns : s'.budget.maxRuns = s.budget.maxRuns

theorem RunsLater.trans {m n : Nat} {s₁ s₂ s₃ : HvState (MockHypervisor blake3)}
    (h : RunsLater m s₁ s₂) (h' : RunsLater n s₂ s₃) : RunsLater (m + n) s₁ s₃ where
  defect := h'.defect.trans h.defect
  runs := by rw [h'.runs, h.runs, Nat.add_assoc]
  used := by rw [h'.used, h.used, Nat.add_assoc]
  maxRuns := h'.maxRuns.trans h.maxRuns

theorem runsLater_afterRun (hlt : s.budget.used < s.budget.maxRuns) (events : List VerifyEvent) :
    RunsLater 1 s (s.afterRun hlt events) := ⟨rfl, rfl, rfl, rfl⟩

/-- Run `run` of a mock, of the segment at edge `i`, comes to what was recorded. -/
def MockHypervisor.Replays (mock : MockHypervisor blake3) (run i : Nat) (spec : SegmentSpec) :
    Prop :=
  spec.ReplayedBy blake3 (mock.defect.timeline run (segIdx i) spec)

theorem verifyLoop_step (lastHash : StateHash)
    (hpath : RecordedPath blake3 (precedingNode root (pre ++ rest) pre.length).snapshotRef
      (spec :: todo) rest) (hlt : s.budget.used < s.budget.maxRuns) :
    ∃ edge rest' expected outcome s', rest = edge :: rest' ∧
      edge.1.attrs.stateHash = some expected ∧
      outcome.endStateHash =
        spec.endOf blake3 (s.hv.defect.timeline s.hv.runs (segIdx pre.length) spec) ∧
      RecordedPath blake3 edge.1.snapshotRef todo rest' ∧ RunsLater 1 s s' ∧
      (s.hv.Replays s.hv.runs pre.length spec →
        verifyLoop root (pre ++ rest) pre.length lastHash rest s =
          verifyLoop root (pre ++ rest) (pre.length + 1) expected rest' s') ∧
      (¬s.hv.Replays s.hv.runs pre.length spec →
        verifyLoop root (pre ++ rest) pre.length lastHash rest s =
          (stopVerdict root (pre ++ rest) pre.length edge expected (.ok outcome), s')) := by
  obtain ⟨edge, rest, bytes, hash, rfl, hbase, -, hhash, hw, hpath⟩ := hpath.uncons
  obtain ⟨outcome, events, hjudged, hend, hverified⟩ := verifySegment_judged hw
    { bisectOnDivergence := false, segmentIndex := segIdx pre.length } rfl hlt
  have hpasses : Passes edge (.ok outcome) ↔ s.hv.Replays s.hv.runs pre.length spec := by
    constructor
    · rintro ⟨end_, epochsOk, heq, -⟩
      exact hverified.mp ⟨end_, epochsOk, Outcome.ok.inj heq⟩
    · -- what replays comes to the hash of the node
      intro hreplayed
      obtain ⟨end_, epochsOk, rfl⟩ := hverified.mpr hreplayed
      refine ⟨end_, epochsOk, rfl, ?_⟩
      rw [hhash, hw.hash_eq]
      exact congrArg some (hreplayed.endHash.symm.trans hend.symm)
  obtain ⟨result, s', hcall, hpass, hstop⟩ := verifyLoop_cons root pre rest lastHash hhash s
  rw [← hbase, hjudged] at hcall
  obtain ⟨rfl, rfl⟩ := Prod.mk.inj hcall
  exact ⟨edge, rest, hash, outcome, _, rfl, hhash, hend, hpath, runsLater_afterRun hlt events,
    fun hreplayed => hpass (hpasses.mpr hreplayed), fun hbad => hstop (mt hpasses.mp hbad)⟩

/-- A walk goes through the segments that replay, one run each. -/
theorem verifyLoop_run {before : List SegmentSpec} :
    ∀ {pre rest : List Edge} (lastHash : StateHash) {s : HvState (MockHypervisor blake3)},
      RecordedPath blake3 (precedingNode root (pre ++ rest) pre.length).snapshotRef
        (before ++ todo) rest →
      s.budget.used + before.length ≤ s.budget.maxRuns →
      (∀ i spec, before[i]? = some spec → s.hv.Replays (s.hv.runs + i) (pre.length + i) spec) →
      ∃ passed rest' hash s', rest = passed ++ rest' ∧ passed.length = before.length ∧
        RecordedPath blake3 (precedingNode root (pre ++ passed ++ rest')
          (pre ++ passed).length).snapshotRef todo rest' ∧
        RunsLater before.length s s' ∧
        verifyLoop root (pre ++ rest) pre.length lastHash rest s =
          verifyLoop root (pre ++ passed ++ rest') (pre ++ passed).length hash rest' s' := by
  induction before with
  | nil =>
      intro pre rest lastHash s hpath _ _
      rw [List.nil_append] at hpath
      refine ⟨[], rest, lastHash, s, rfl, rfl, ?_, ⟨rfl, rfl, rfl, rfl⟩, ?_⟩
      · rwa [List.append_nil]
      · rw [List.append_nil]
  | cons first before ih =>
      intro pre rest lastHash s hpath henough hreplayed
      rw [List.length_cons] at henough
      obtain ⟨edge, rest, expected, outcome, s₁, rfl, -, -, hrest, hs₁, hpass, -⟩ :=
        verifyLoop_step lastHash hpath (show s.budget.used < s.budget.maxRuns by omega)
      have hfirst := hreplayed 0 first rfl
      rw [Nat.add_zero, Nat.add_zero] at hfirst
      have hlen : (pre ++ [edge]).length = pre.length + 1 := by simp
      rw [← precedingNode_append root pre rest edge, ← hlen, List.append_cons] at hrest
      obtain ⟨passed, rest', hash, s', rfl, hcount, hpath', hs', hloop⟩ := ih expected hrest
        (by rw [hs₁.used, hs₁.maxRuns]; omega) (by
          intro i spec hi
          have hnext := hreplayed (i + 1) spec hi
          rw [MockHypervisor.Replays] at hnext ⊢
          rwa [hs₁.defect, hs₁.runs, hlen, Nat.add_assoc, Nat.add_assoc, Nat.add_comm 1 i])
      have hassoc : pre ++ [edge] ++ passed = pre ++ edge :: passed := List.append_cons .. |>.symm
      rw [hassoc] at hpath' hloop
      refine ⟨edge :: passed, rest', hash, s', rfl, ?_, hpath', ?_, ?_⟩
      · rw [List.length_cons, List.length_cons, hcount]
      · rw [List.length_cons, Nat.add_comm]
        exact hs₁.trans hs'
      · rw [hpass hfirst, ← hlen, List.append_cons, hloop]

variable {specs : List SegmentSpec} {edges : List Edge}

theorem verify_replayed (hpath : RecordedPath blake3 root.snapshotRef specs edges)
    (henough : s.budget.used + specs.length ≤ s.budget.maxRuns)
    (hreplayed : ∀ i spec, specs[i]? = some spec → s.hv.Replays (s.hv.runs + i) i spec) :
    ∃ hash s', verify root edges s =
        (.ok (.verified hash (UInt32.ofNat specs.length)), s') ∧
      RunsLater specs.length s s' := by
  have hstart : RecordedPath blake3
      (precedingNode root ([] ++ edges) ([] : List Edge).length).snapshotRef (specs ++ []) edges := by
    rwa [List.append_nil]
  obtain ⟨passed, rest, hash, s', rfl, hcount, hrest, hs', hloop⟩ :=
    verifyLoop_run Bytes32.zero hstart henough (by simpa using hreplayed)
  cases hrest
  refine ⟨hash, s', ?_, hs'⟩
  rw [List.nil_append, List.append_nil] at hloop
  rw [List.append_nil]
  apply hloop.trans
  rw [verifyLoop, List.append_nil, List.nil_append, hcount]
  rfl

theorem verify_stops {before : List SegmentSpec}
    (hpath : RecordedPath blake3 root.snapshotRef (before ++ spec :: todo) edges)
    (henough : s.budget.used + before.length < s.budget.maxRuns)
    (hreplayed : ∀ i other, before[i]? = some other → s.hv.Replays (s.hv.runs + i) i other)
    (hbad : ¬s.hv.Replays (s.hv.runs + before.length) before.length spec) :
    ∃ bad expected actual s', edges[before.length]? = some bad ∧
      bad.1.attrs.stateHash = some expected ∧
      actual = spec.endOf blake3 (s.hv.defect.timeline (s.hv.runs + before.length)
        (segIdx before.length) spec) ∧
      verify root edges s = (.ok (.diverged (segIdx before.length)
        ((precedingNode root edges before.length).nodeId, bad.1.nodeId) expected actual), s') ∧
      RunsLater (before.length + 1) s s' := by
  have hstart : RecordedPath blake3
      (precedingNode root ([] ++ edges) ([] : List Edge).length).snapshotRef
      (before ++ spec :: todo) edges := hpath
  obtain ⟨passed, rest, hash, s₁, rfl, hcount, hrest, hs₁, hloop⟩ :=
    verifyLoop_run Bytes32.zero hstart henough.le (by simpa using hreplayed)
  rw [List.nil_append] at hrest hloop
  obtain ⟨bad, rest, expected, outcome, s', rfl, hexpected, hend, -, hs', -, hstop⟩ :=
    verifyLoop_step hash hrest (by rw [hs₁.used, hs₁.maxRuns]; exact henough)
  rw [MockHypervisor.Replays, hs₁.defect, hs₁.runs, hcount] at hstop
  rw [hs₁.defect, hs₁.runs, hcount] at hend
  refine ⟨bad, expected, _, s', ?_, hexpected, hend, ?_, hs₁.trans hs'⟩
  · rw [← hcount, List.getElem?_append_right (le_refl _), Nat.sub_self, List.getElem?_cons_zero]
  · rw [← hcount]
    exact hloop.trans (hcount ▸ hstop hbad)

end Walk

/-- Verification over the mock decides whether every run replays what was recorded:
whatever its defect and its runs before, a recorded path is verified when they all do,
and otherwise reported at the first segment whose run does not, after a run for each
segment up to it. -/
theorem verify_decides (blake3 : Bytes → Bytes32) {root : PathNode} {specs : List SegmentSpec}
    {edges : List Edge} {maxRuns : UInt32}
    (hpath : RecordedPath blake3 root.snapshotRef specs edges)
    (hruns : specs.length ≤ maxRuns.toNat) (mock : MockHypervisor blake3) :
    ((∀ i spec, specs[i]? = some spec → mock.Replays (mock.runs + i) i spec) →
      ∃ hash s', verify root edges ⟨mock, RunBudget.new maxRuns.toNat, []⟩ =
          (.ok (.verified hash (UInt32.ofNat specs.length)), s') ∧
        s'.hv.runs = mock.runs + specs.length) ∧
    ∀ {pre post : List SegmentSpec} {spec : SegmentSpec}, specs = pre ++ spec :: post →
      (∀ i other, pre[i]? = some other → mock.Replays (mock.runs + i) i other) →
      ¬mock.Replays (mock.runs + pre.length) pre.length spec →
      ∃ bad expected actual s', edges[pre.length]? = some bad ∧
        bad.1.attrs.stateHash = some expected ∧
        verify root edges ⟨mock, RunBudget.new maxRuns.toNat, []⟩ =
          (.ok (.diverged (segIdx pre.length)
            ((precedingNode root edges pre.length).nodeId, bad.1.nodeId) expected actual), s') ∧
        s'.hv.runs = mock.runs + (pre.length + 1) := by
  constructor
  · intro hreplayed
    obtain ⟨hash, s', hverify, hs'⟩ := verify_replayed hpath
      (s := ⟨mock, RunBudget.new maxRuns.toNat, []⟩) ((Nat.zero_add _).trans_le hruns) hreplayed
    exact ⟨hash, s', hverify, hs'.runs⟩
  · intro pre post spec hsplit hreplayed hbad
    have henough : 0 + pre.length < maxRuns.toNat := by
      rw [hsplit, List.length_append, List.length_cons] at hruns
      omega
    rw [hsplit] at hpath
    obtain ⟨bad, expected, actual, s', hrow, hexpected, -, hverify, hs'⟩ := verify_stops hpath
      (s := ⟨mock, RunBudget.new maxRuns.toNat, []⟩) henough hreplayed hbad
    exact ⟨bad, expected, actual, s', hrow, hexpected, hverify, hs'.runs⟩

theorem recordable_steadyEvent : Recordable steadyEvent := by
  obtain ⟨⟨bytes, hash⟩, hwrite, -⟩ := isOkAnd_iff.mp writeSegment_steadyEvent
  obtain ⟨segment, -, hw⟩ := writtenAs_of_writeSegment hwrite
  exact hw.valid

/-- A flake in a segment that is not on the path, after seven runs, and one in the second. -/
theorem verify_decides_leadIn :
    (∃ edges hash s', verify pathRoot edges
        ⟨(⟨.replayNondet 9 0 1, 7⟩ : MockHypervisor Blake3.hash), RunBudget.new 2, []⟩ =
          (.ok (.verified hash 2), s') ∧ s'.hv.runs = 9) ∧
    ∃ edges bad expected actual s', edges[1]? = some bad ∧ bad.1.attrs.stateHash = some expected ∧
      verify pathRoot edges ⟨(⟨.replayNondet (segIdx 1) 2 1, 0⟩ : MockHypervisor Blake3.hash),
          RunBudget.new 2, []⟩ =
        (.ok (.diverged (segIdx 1) ((precedingNode pathRoot edges 1).nodeId, bad.1.nodeId) expected
          actual), s') ∧ s'.hv.runs = 2 := by
  have htwo : 2 ≤ (2 : UInt32).toNat := by decide
  obtain ⟨edges, hpath⟩ := exists_leadInPath writable_steadyEvent (bounded_of_lt (by decide))
    (by decide) rfl
  have hsteady : ∀ spec ∈ [leadIn, steadyEvent], spec.skewAt = none := by decide
  constructor
  · obtain ⟨hash, s', hverify, hruns⟩ := (verify_decides Blake3.hash hpath htwo
      ⟨.replayNondet 9 0 1, 7⟩).1 (by
        intro i spec hi
        have hlt : i < 2 := (List.getElem?_eq_some_iff.mp hi).1
        have hindex : (9 : UInt32) ≠ segIdx i := by
          interval_cases i <;> decide
        rw [MockHypervisor.Replays, timeline_flake_of_ne hindex]
        exact replayedBy_of_steady (hsteady spec (List.mem_of_getElem? hi)))
    exact ⟨edges, hash, s', hverify, hruns⟩
  · have hsplit : [leadIn, steadyEvent] = [leadIn] ++ steadyEvent :: [] := rfl
    have hfree : CollisionFree Blake3.hash (steadyEvent.seed Blake3.hash) 3 steadyEvent.timeline
        (steadyEvent.flaked 2 1) := by decide +kernel
    have hchange : fnvFold (register (before 2 steadyEvent.timeline)) (flakeFold 1) ≠
        register (before 2 steadyEvent.timeline) := by decide +kernel
    have hbad : ¬steadyEvent.ReplayedBy Blake3.hash
        ((InjectedDefect.replayNondet (segIdx 1) 2 1).timeline 1 (segIdx 1) steadyEvent) := by
      rw [timeline_flake]
      exact not_replayedBy_flaked recordable_steadyEvent rfl (by decide) hfree hchange
    exact ⟨edges, (verify_decides Blake3.hash hpath htwo ⟨.replayNondet (segIdx 1) 2 1, 0⟩).2 hsplit
      (by
        intro i other hi
        obtain ⟨rfl, rfl⟩ : i = 0 ∧ other = leadIn := by
          cases i with
          | zero => simpa [eq_comm] using hi
          | succ i => simp at hi
        rw [MockHypervisor.Replays, timeline_flake_of_ne (by decide)]
        exact replayedBy_of_steady rfl) hbad⟩

end ReplayRenderer
