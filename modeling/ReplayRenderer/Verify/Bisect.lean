import ReplayRenderer.Splice.Assembly
import ReplayRenderer.Verify.Report

/-!
The bisection driver. Phase 1 replays the segment several times and compares
the outcomes with one another; when they agree, phase 2 compares the replay
with the recording, by one native bisection or, without recorded epochs or
without budget, by the end state alone.
-/

namespace ReplayRenderer

open Lib Lib.Outcome

structure BisectOptions where
  /-- Total hypervisor runs budget. -/
  maxRuns : Nat := 64
  /-- Phase-1 re-runs beyond the first. -/
  flakeRetries : Nat := 3
  /-- Skip replay-vs-replay when already known deterministic. -/
  skipPhase1 : Bool := false
  deriving DecidableEq

/-- `outcomes.windows(2).all(|w| w[0] == w[1])`. -/
def allIdentical : List SegmentOutcome → Bool
  | a :: b :: rest => a = b && allIdentical (b :: rest)
  | _ => true

/-- `windows.min_by_key(|(lo, hi)| hi - lo)`: the first of the narrowest. -/
def minWindow : List (Nat × Nat) → Outcome HvFault (Option (Nat × Nat))
  | [] => .ok none
  | (lo, hi) :: rest => do
    let width ← u64Sub hi lo
    match ← minWindow rest with
    | none => pure (some (lo, hi))
    | some (lo', hi') =>
      if hi' - lo' < width then pure (some (lo', hi')) else pure (some (lo, hi))

def SegmentOutcome.window : SegmentOutcome → Option (Nat × Nat)
  | .verified .. => none
  | .diverged d => some (d.icountLo, d.icountHi)

def SegmentOutcome.divergence : SegmentOutcome → Option Divergence
  | .verified .. => none
  | .diverged d => some d

section Driver

variable {σ : Type} [HypervisorReplay σ] (base : SnapshotRef) (segment : DhilogSegment)
  (expected : StateHash) (identity : BisectIdentity)

def phase1Runs : Nat → List SegmentOutcome → Proc (HvState σ) HvFault (List SegmentOutcome)
  | 0, outcomes => pure outcomes
  | n + 1, outcomes => do
    let exhausted ← Proc.gets fun s => s.budget.exhausted
    if exhausted then pure outcomes
    else do
      let outcome ← HypervisorReplay.verifySegment base segment
        { bisectOnDivergence := false, segmentIndex := identity.segmentIndex }
      phase1Runs n (outcomes ++ [outcome])

def reportNondeterministic (outcomes : List SegmentOutcome) :
    Proc (HvState σ) HvFault DivergenceReport := do
  let window ← Proc.lift (minWindow (outcomes.filterMap SegmentOutcome.window))
  let last ← Proc.lift (Outcome.expect outcomes.getLast?)
  let budget ← Proc.gets HvState.budget
  pure (makeReport identity .replayNondeterministic
    (window.getD (0, segment.header.endIcount.toNat)) none expected last.endStateHash
    budget.used budget.exhausted [])

/-- The primary path: one native-bisection run, its divergence taken over
verbatim. A divergence that does not reproduce leaves the whole segment. -/
def nativeBisection : Proc (HvState σ) HvFault DivergenceReport := do
  let outcome ← HypervisorReplay.verifySegment base segment
    { bisectOnDivergence := true, segmentIndex := identity.segmentIndex }
  let budget ← Proc.gets HvState.budget
  match outcome with
  | .diverged d =>
    pure (makeReport identity .recordedDivergence (d.icountLo, d.icountHi) (some outcome)
      expected d.endStateHash budget.used budget.exhausted [])
  | .verified endStateHash _ =>
    pure (makeReport identity .recordedDivergence (0, segment.header.endIcount.toNat) none
      expected endStateHash budget.used budget.exhausted [])

/-- The hash at the end of the segment by one exact stop, while the budget
lasts. A fault is recorded, and the hash phase 1 saw is kept. -/
def endState (phase1Diverged : Option Divergence) :
    Proc (HvState σ) HvFault (StateHash × List RunFaultJson) := do
  let endIcount := segment.header.endIcount.toNat
  let phase1Hash := (phase1Diverged.map Divergence.endStateHash).getD Bytes32.zero
  let exhausted ← Proc.gets fun s => s.budget.exhausted
  if exhausted then pure (phase1Hash, [])
  else do
    match ← Proc.attempt (HvState.runToIcount base segment endIcount) with
    | .ok h => pure (h, [])
    | .error fault =>
      pure (phase1Hash, [{ icount := endIcount, kind := "HV_FAULT", detail := fault.display }])

def endStateDiff (phase1Diverged : Option Divergence) :
    Proc (HvState σ) HvFault DivergenceReport := do
  let (actual, runFaults) ← endState base segment phase1Diverged
  let budget ← Proc.gets HvState.budget
  pure { makeReport identity .recordedDivergence (0, segment.header.endIcount.toNat) none
      expected actual budget.used budget.exhausted runFaults with
    diffPageIdx := phase1Diverged.map Divergence.diffPageIdx }

def phase2 (outcomes : List SegmentOutcome) : Proc (HvState σ) HvFault DivergenceReport := do
  let phase1Diverged := outcomes.findSome? SegmentOutcome.divergence
  let exhausted ← Proc.gets fun s => s.budget.exhausted
  if segment.header.flags &&& flagEpochHashes ≠ 0 ∧ exhausted = false then
    nativeBisection base segment expected identity
  else
    endStateDiff base segment expected identity phase1Diverged

def bisectPhases (opts : BisectOptions) : Proc (HvState σ) HvFault DivergenceReport :=
  if opts.skipPhase1 then phase2 base segment expected identity []
  else do
    let outcomes ← phase1Runs base segment identity (opts.flakeRetries + 1) []
    if allIdentical outcomes then phase2 base segment expected identity outcomes
    else reportNondeterministic segment expected identity outcomes

def bisect (opts : BisectOptions) : Proc σ HvFault DivergenceReport := fun hv =>
  let (result, s) := bisectPhases base segment expected identity opts
    ⟨hv, RunBudget.new opts.maxRuns, []⟩
  (result, s.hv)

end Driver

/-- Without budget the end-state comparison runs nothing and reports the whole
segment. -/
theorem endStateDiff_spent {σ : Type} [HypervisorReplay σ] (base : SnapshotRef)
    (segment : DhilogSegment) (expected : StateHash) (identity : BisectIdentity)
    (phase1Diverged : Option Divergence) {s : HvState σ} (h : s.budget.exhausted = true) :
    ∃ report, endStateDiff base segment expected identity phase1Diverged s = (.ok report, s) ∧
      report.classification = .recordedDivergence ∧
      (∀ icount, report.Covers icount ↔ icount ≤ segment.header.endIcount.toNat) ∧
      report.budgetExhausted = true := by
  have hstate : endState base segment phase1Diverged s =
      (.ok ((phase1Diverged.map Divergence.endStateHash).getD Bytes32.zero, []), s) := by
    rw [endState, Proc.bind_apply_ok (Proc.gets_apply _ s), if_pos h, Proc.pure_apply]
  rw [endStateDiff, Proc.bind_apply_ok hstate]
  simp only
  rw [Proc.bind_apply_ok (Proc.gets_apply _ s), Proc.pure_apply]
  refine ⟨_, rfl, rfl, fun icount => ?_, h⟩
  rw [covers_with_diffPageIdx, covers_makeReport]
  exact and_iff_right (Nat.zero_le icount)

theorem allIdentical_eq_true {outcomes : List SegmentOutcome} :
    allIdentical outcomes = true ↔ ∀ o ∈ outcomes, ∀ o' ∈ outcomes, o = o' := by
  induction outcomes with
  | nil => simp [allIdentical]
  | cons a rest ih =>
      cases rest with
      | nil => simp [allIdentical]
      | cons b rest =>
          rw [allIdentical, Bool.and_eq_true, decide_eq_true_eq, ih]
          constructor
          · rintro ⟨rfl, hrest⟩ o ho o' ho'
            have hmem : ∀ x ∈ a :: a :: rest, x ∈ a :: rest := by simp
            exact hrest o (hmem o ho) o' (hmem o' ho')
          · intro h
            refine ⟨h a (by simp) b (by simp), fun o ho o' ho' => ?_⟩
            exact h o (List.mem_cons_of_mem a ho) o' (List.mem_cons_of_mem a ho')

/-! ### The driver and the log -/

section Log

variable {σ : Type} [HypervisorReplay σ] {base : SnapshotRef} {segment : DhilogSegment}
  {expected : StateHash} {identity : BisectIdentity}

theorem simulates_phase1Runs {n : Nat} : ∀ {outcomes : List SegmentOutcome},
    Proc.Simulates HvState.bare
      (phase1Runs base segment identity n outcomes :
        Proc (HvState (Logged σ)) HvFault (List SegmentOutcome))
      (phase1Runs base segment identity n outcomes) := by
  induction n with
  | zero =>
      intro outcomes
      exact .pure _
  | succ n ih =>
      intro outcomes
      refine .bind (.gets fun _ => rfl) fun exhausted => ?_
      cases exhausted with
      | true => exact .pure _
      | false => exact .bind (simulates_verifySegment _ _ _) fun outcome => ih

theorem simulates_endState {phase1Diverged : Option Divergence} :
    Proc.Simulates HvState.bare
      (endState base segment phase1Diverged :
        Proc (HvState (Logged σ)) HvFault (StateHash × List RunFaultJson))
      (endState base segment phase1Diverged) := by
  refine .bind (.gets fun _ => rfl) fun exhausted => ?_
  cases exhausted with
  | true => exact .pure _
  | false =>
      refine .bind (.attempt (simulates_runToIcount _ _ _)) fun result => ?_
      cases result with
      | ok h => exact .pure _
      | error fault => exact .pure _

theorem simulates_phase2 {outcomes : List SegmentOutcome} :
    Proc.Simulates HvState.bare
      (phase2 base segment expected identity outcomes :
        Proc (HvState (Logged σ)) HvFault DivergenceReport)
      (phase2 base segment expected identity outcomes) := by
  refine .bind (.gets fun _ => rfl) fun exhausted => ?_
  by_cases h : segment.header.flags &&& flagEpochHashes ≠ 0 ∧ exhausted = false
  · rw [if_pos h, if_pos h]
    refine .bind (simulates_verifySegment _ _ _) fun outcome => ?_
    refine .bind (.gets fun _ => rfl) fun budget => ?_
    cases outcome with
    | diverged d => exact .pure _
    | verified endStateHash epochsOk => exact .pure _
  · rw [if_neg h, if_neg h]
    exact .bind simulates_endState fun _ => .bind (.gets fun _ => rfl) fun budget => .pure _

theorem simulates_bisectPhases (base : SnapshotRef) (segment : DhilogSegment)
    (expected : StateHash) (identity : BisectIdentity) (opts : BisectOptions) :
    Proc.Simulates HvState.bare
      (bisectPhases base segment expected identity opts :
        Proc (HvState (Logged σ)) HvFault DivergenceReport)
      (bisectPhases base segment expected identity opts) := by
  by_cases hskip : opts.skipPhase1 = true
  · rw [bisectPhases, bisectPhases, if_pos hskip, if_pos hskip]
    exact simulates_phase2
  · rw [bisectPhases, bisectPhases, if_neg hskip, if_neg hskip]
    refine .bind simulates_phase1Runs fun outcomes => ?_
    by_cases hall : allIdentical outcomes = true
    · rw [if_pos hall, if_pos hall]
      exact simulates_phase2
    · rw [if_neg hall, if_neg hall]
      refine .bind (.lift _) fun window => ?_
      exact .bind (.lift _) fun last => .bind (.gets fun _ => rfl) fun budget => .pure _

def phase1Call (base : SnapshotRef) (segment : DhilogSegment) (identity : BisectIdentity)
    (outcome : SegmentOutcome) : HvCall :=
  .verifySegment base segment
    { bisectOnDivergence := false, segmentIndex := identity.segmentIndex } (.ok outcome)

def Returns (σ : Type) [HypervisorReplay σ] (base : SnapshotRef) (segment : DhilogSegment)
    (outcome : SegmentOutcome) : Prop :=
  ∃ (opts : VerifyOpts) (s s' : HvState σ),
    HypervisorReplay.verifySegment base segment opts s = (.ok outcome, s')

theorem returns_of_logged {opts : VerifyOpts} {s s' : HvState (Logged σ)}
    {outcome : SegmentOutcome}
    (h : HypervisorReplay.verifySegment base segment opts s = (.ok outcome, s')) :
    Returns σ base segment outcome := by
  obtain ⟨hval, -⟩ := simulates_verifySegment base segment opts s
  rw [h] at hval
  exact ⟨opts, s.bare, _, Prod.ext hval.symm rfl⟩

def nativeCall (base : SnapshotRef) (segment : DhilogSegment) (identity : BisectIdentity)
    (outcome : SegmentOutcome) : HvCall :=
  .verifySegment base segment
    { bisectOnDivergence := true, segmentIndex := identity.segmentIndex } (.ok outcome)

/-- The stop at the end that the fallback makes while the budget lasts, and
the run faults it records. -/
inductive EndProbe (base : SnapshotRef) (segment : DhilogSegment) :
    List RunFaultJson → List HvCall → Prop
  | spent : EndProbe base segment [] []
  | stopped {hash : StateHash} :
      EndProbe base segment []
        [.runToIcount base segment segment.header.endIcount.toNat (.ok hash)]
  | faulted {fault : HvFault} :
      EndProbe base segment
        [{ icount := segment.header.endIcount.toNat, kind := "HV_FAULT", detail := fault.display }]
        [.runToIcount base segment segment.header.endIcount.toNat (.err fault)]

/-- How a bisection comes to its report, and the calls it has made by then. -/
inductive BisectExit (σ : Type) [HypervisorReplay σ] (base : SnapshotRef)
    (segment : DhilogSegment) (expected : StateHash) (identity : BisectIdentity) :
    DivergenceReport → List HvCall → Prop
  | disagree {outcomes : List SegmentOutcome} {window : Option (Nat × Nat)} {actual : StateHash}
      {used : Nat} {exhausted : Bool}
      (returned : ∀ o ∈ outcomes, Returns σ base segment o)
      (narrowest : minWindow (outcomes.filterMap SegmentOutcome.window) = .ok window) :
      BisectExit σ base segment expected identity
        (makeReport identity .replayNondeterministic
          (window.getD (0, segment.header.endIcount.toNat)) none expected actual used exhausted [])
        (outcomes.map (phase1Call base segment identity))
  | native {outcomes : List SegmentOutcome} {d : Divergence} {used : Nat} {exhausted : Bool}
      (agree : ∀ o ∈ outcomes, ∀ o' ∈ outcomes, o = o')
      (returned : Returns σ base segment (.diverged d)) :
      BisectExit σ base segment expected identity
        (makeReport identity .recordedDivergence (d.icountLo, d.icountHi) (some (.diverged d))
          expected d.endStateHash used exhausted [])
        (outcomes.map (phase1Call base segment identity) ++
          [nativeCall base segment identity (.diverged d)])
  | notReproduced {outcomes : List SegmentOutcome} {endStateHash : StateHash}
      {epochsOk used : Nat} {exhausted : Bool}
      (agree : ∀ o ∈ outcomes, ∀ o' ∈ outcomes, o = o') :
      BisectExit σ base segment expected identity
        (makeReport identity .recordedDivergence (0, segment.header.endIcount.toNat) none
          expected endStateHash used exhausted [])
        (outcomes.map (phase1Call base segment identity) ++
          [nativeCall base segment identity (.verified endStateHash epochsOk)])
  | fallback {outcomes : List SegmentOutcome} {actual : StateHash} {used : Nat}
      {exhausted : Bool} {runFaults : List RunFaultJson} {last : List HvCall}
      (agree : ∀ o ∈ outcomes, ∀ o' ∈ outcomes, o = o')
      (probe : EndProbe base segment runFaults last) :
      BisectExit σ base segment expected identity
        { makeReport identity .recordedDivergence (0, segment.header.endIcount.toNat) none
            expected actual used exhausted runFaults with
          diffPageIdx :=
            (outcomes.findSome? SegmentOutcome.divergence).map Divergence.diffPageIdx }
        (outcomes.map (phase1Call base segment identity) ++ last)

theorem phase1Runs_calls {n : Nat} :
    ∀ {outcomes outcomes' : List SegmentOutcome} {s s' : HvState (Logged σ)},
      phase1Runs base segment identity n outcomes s = (.ok outcomes', s') →
      ∃ more, outcomes' = outcomes ++ more ∧ (∀ o ∈ more, Returns σ base segment o) ∧
        s'.hv.calls = s.hv.calls ++ more.map (phase1Call base segment identity) := by
  induction n with
  | zero =>
      intro outcomes outcomes' s s' h
      obtain ⟨rfl, rfl⟩ : outcomes = outcomes' ∧ s = s' := by simpa [phase1Runs] using h
      exact ⟨[], by simp, by simp, by simp⟩
  | succ n ih =>
      intro outcomes outcomes' s s' h
      rw [phase1Runs, Proc.bind_apply_ok (Proc.gets_apply _ s)] at h
      cases hex : s.budget.exhausted with
      | true =>
          obtain ⟨rfl, rfl⟩ : outcomes = outcomes' ∧ s = s' := by simpa [hex] using h
          exact ⟨[], by simp, by simp, by simp⟩
      | false =>
          simp only [hex, Bool.false_eq_true, if_false] at h
          obtain ⟨outcome, s₁, hcall, hrest⟩ := Proc.bind_eq_ok.mp h
          obtain ⟨more, rfl, hreturned, hcalls⟩ := ih hrest
          have hlog := calls_verifySegment base segment
            { bisectOnDivergence := false, segmentIndex := identity.segmentIndex } s
          rw [hcall] at hlog
          refine ⟨outcome :: more, by simp,
            List.forall_mem_cons.mpr ⟨returns_of_logged hcall, hreturned⟩, ?_⟩
          rw [hcalls, hlog, List.append_assoc]
          rfl

section Phase2

variable {outcomes : List SegmentOutcome} {s s' : HvState (Logged σ)} {report : DivergenceReport}
  (hagree : ∀ o ∈ outcomes, ∀ o' ∈ outcomes, o = o')

include hagree

theorem nativeBisection_exit
    (h : nativeBisection base segment expected identity s = (.ok report, s')) :
    ∃ last, s'.hv.calls = s.hv.calls ++ last ∧
      BisectExit σ base segment expected identity report
        (outcomes.map (phase1Call base segment identity) ++ last) := by
  obtain ⟨outcome, s₁, hcall, hrest⟩ := Proc.bind_eq_ok.mp h
  have hlog := calls_verifySegment base segment
    { bisectOnDivergence := true, segmentIndex := identity.segmentIndex } s
  rw [hcall] at hlog
  rw [Proc.bind_apply_ok (Proc.gets_apply _ s₁)] at hrest
  cases outcome with
  | diverged d =>
      obtain ⟨hreport, rfl⟩ := Prod.mk.inj hrest
      obtain rfl := Outcome.ok.inj hreport
      exact ⟨_, hlog, .native hagree (returns_of_logged hcall)⟩
  | verified endStateHash epochsOk =>
      obtain ⟨hreport, rfl⟩ := Prod.mk.inj hrest
      obtain rfl := Outcome.ok.inj hreport
      exact ⟨_, hlog, .notReproduced hagree⟩

omit hagree in
theorem endState_probe {phase1Diverged : Option Divergence}
    {actual : StateHash} {runFaults : List RunFaultJson}
    (h : endState base segment phase1Diverged s = (.ok (actual, runFaults), s')) :
    ∃ last, s'.hv.calls = s.hv.calls ++ last ∧ EndProbe base segment runFaults last := by
  rw [endState, Proc.bind_apply_ok (Proc.gets_apply _ s)] at h
  cases hex : s.budget.exhausted with
  | true =>
      rw [hex, if_pos rfl] at h
      obtain ⟨hend, rfl⟩ := Prod.mk.inj h
      obtain ⟨-, rfl⟩ := Prod.mk.inj (Outcome.ok.inj hend)
      exact ⟨[], by simp, .spent⟩
  | false =>
      rw [hex, if_neg Bool.false_ne_true] at h
      obtain ⟨result, s₁, hcall, hrest⟩ := Proc.bind_eq_ok.mp h
      have hlog := calls_runToIcount base segment segment.header.endIcount.toNat s
      rw [Proc.attempt] at hcall
      rcases hrun : HvState.runToIcount base segment segment.header.endIcount.toNat s
        with ⟨_ | _ | _, t⟩ <;> rw [hrun] at hcall hlog <;>
        simp only [Prod.mk.injEq, reduceCtorEq, false_and] at hcall
      · obtain ⟨hresult, rfl⟩ := hcall
        obtain rfl := Outcome.ok.inj hresult
        obtain ⟨hend, rfl⟩ := Prod.mk.inj hrest
        obtain ⟨-, rfl⟩ := Prod.mk.inj (Outcome.ok.inj hend)
        exact ⟨_, hlog, .stopped⟩
      · obtain ⟨hresult, rfl⟩ := hcall
        obtain rfl := Outcome.ok.inj hresult
        obtain ⟨hend, rfl⟩ := Prod.mk.inj hrest
        obtain ⟨-, rfl⟩ := Prod.mk.inj (Outcome.ok.inj hend)
        exact ⟨_, hlog, .faulted⟩

theorem phase2_exit
    (h : phase2 base segment expected identity outcomes s = (.ok report, s')) :
    ∃ last, s'.hv.calls = s.hv.calls ++ last ∧
      BisectExit σ base segment expected identity report
        (outcomes.map (phase1Call base segment identity) ++ last) := by
  rw [phase2, Proc.bind_apply_ok (Proc.gets_apply _ s)] at h
  split at h
  · exact nativeBisection_exit hagree h
  · obtain ⟨⟨actual, runFaults⟩, s₁, hend, hrest⟩ := Proc.bind_eq_ok.mp h
    obtain ⟨hreport, rfl⟩ := Prod.mk.inj hrest
    obtain rfl := Outcome.ok.inj hreport
    obtain ⟨last, hcalls, hprobe⟩ := endState_probe hend
    exact ⟨last, hcalls, .fallback hagree hprobe⟩

end Phase2

theorem bisectPhases_exit {opts : BisectOptions} {s s' : HvState (Logged σ)}
    {report : DivergenceReport}
    (h : bisectPhases base segment expected identity opts s = (.ok report, s')) :
    ∃ calls, s'.hv.calls = s.hv.calls ++ calls ∧
      BisectExit σ base segment expected identity report calls := by
  rw [bisectPhases] at h
  split at h
  · exact phase2_exit (by simp) h
  · obtain ⟨outcomes, s₁, hphase1, hrest⟩ := Proc.bind_eq_ok.mp h
    obtain ⟨outcomes, rfl, hreturned, hcalls₁⟩ := phase1Runs_calls hphase1
    split at hrest
    · rename_i hall
      obtain ⟨last, hcalls, hexit⟩ := phase2_exit (allIdentical_eq_true.mp hall) hrest
      refine ⟨_, ?_, hexit⟩
      rw [hcalls, hcalls₁, List.append_assoc]
    · -- the runs disagree, and the report says so
      obtain ⟨window, s₂, hwindow, hrest⟩ := Proc.bind_eq_ok.mp hrest
      obtain ⟨last, s₃, hlast, hrest⟩ := Proc.bind_eq_ok.mp hrest
      rw [Proc.lift_apply] at hwindow hlast
      obtain ⟨hnarrowest, rfl⟩ := Prod.mk.inj hwindow
      obtain ⟨-, rfl⟩ := Prod.mk.inj hlast
      obtain ⟨hreport, rfl⟩ := Prod.mk.inj hrest
      obtain rfl := Outcome.ok.inj hreport
      exact ⟨_, hcalls₁, .disagree hreturned hnarrowest⟩

/-- A logged bisection comes to the same report, by one of the exits. -/
theorem bisect_exit {opts : BisectOptions} {hv hv' : σ} {report : DivergenceReport}
    (h : bisect base segment expected identity opts hv = (.ok report, hv')) :
    ∃ calls, bisect base segment expected identity opts (⟨hv, []⟩ : Logged σ) =
        (.ok report, ⟨hv', calls⟩) ∧
      BisectExit σ base segment expected identity report calls := by
  obtain ⟨hval, hstate⟩ :=
    simulates_bisectPhases base segment expected identity opts
      (HvState.logged (⟨hv, RunBudget.new opts.maxRuns, []⟩ : HvState σ))
  rcases hrun : bisectPhases base segment expected identity opts
    (HvState.logged (⟨hv, RunBudget.new opts.maxRuns, []⟩ : HvState σ)) with ⟨result, s'⟩
  rw [hrun] at hval hstate
  have hresult : result = .ok report := hval.trans (congrArg Prod.fst h)
  have hinner : s'.hv.inner = hv' :=
    (congrArg HvState.hv hstate).trans (congrArg Prod.snd h)
  subst hresult
  obtain ⟨calls, hcalls, hexit⟩ := bisectPhases_exit hrun
  have hbisect : bisect base segment expected identity opts (⟨hv, []⟩ : Logged σ) =
      (.ok report, s'.hv) :=
    congrArg (fun r => (r.1, r.2.hv)) hrun
  rw [HvState.calls_logged, List.nil_append] at hcalls
  refine ⟨calls, ?_, hexit⟩
  rw [hbisect, ← hinner, ← hcalls]

/-- What phase 2 calls: nothing, one native bisection, whose hash it reports,
or one stop at the end. -/
inductive Phase2Calls (base : SnapshotRef) (segment : DhilogSegment)
    (identity : BisectIdentity) (report : DivergenceReport) : List HvCall → Prop
  | nothing : Phase2Calls base segment identity report []
  | native {outcome : SegmentOutcome}
      (actual_eq : report.actualHash = b3Hex outcome.endStateHash) :
      Phase2Calls base segment identity report [.verifySegment base segment
        { bisectOnDivergence := true, segmentIndex := identity.segmentIndex } (.ok outcome)]
  | stop {result : Outcome HvFault StateHash} :
      Phase2Calls base segment identity report
        [.runToIcount base segment segment.header.endIcount.toNat result]

/-- For any hypervisor, a report that blames the recording comes after
phase-1 runs that all returned one outcome; the native run of phase 2 comes
last and is compared with nothing. -/
theorem phase1_agrees_of_recordedDivergence {opts : BisectOptions} {hv hv' : σ}
    {report : DivergenceReport}
    (h : bisect base segment expected identity opts hv = (.ok report, hv'))
    (hclass : report.classification = .recordedDivergence) :
    ∃ (outcomes : List SegmentOutcome) (last : List HvCall),
      bisect base segment expected identity opts (⟨hv, []⟩ : Logged σ) =
        (.ok report,
          ⟨hv', outcomes.map (phase1Call base segment identity) ++ last⟩) ∧
      (∀ o ∈ outcomes, ∀ o' ∈ outcomes, o = o') ∧
      Phase2Calls base segment identity report last := by
  obtain ⟨calls, hbisect, hexit⟩ := bisect_exit h
  cases hexit with
  | disagree => simp at hclass
  | native hagree => exact ⟨_, _, hbisect, hagree, .native rfl⟩
  | notReproduced hagree => exact ⟨_, _, hbisect, hagree, .native rfl⟩
  | fallback hagree hprobe =>
      refine ⟨_, _, hbisect, hagree, ?_⟩
      cases hprobe with
      | spent => exact .nothing
      | stopped => exact .stop
      | faulted => exact .stop

end Log

/-! ### A flake that phase 1 does not see -/

def bareIdentity : BisectIdentity :=
  { jobId := "01JZZZZZZZZZZZZZZZZZZZZZZZ"
    sourceJobId := "01JZZZZZZZZZZZZZZZZZZZZZZY"
    experimentId := "exp"
    nodeId := 1
    badChildNodeId := 1
    edgeParent := 0
    segmentIndex := 1
    dilogBlake3 := Bytes32.zero
    hypervisorVersion := "mock" }

def hashedSegment : DhilogSegment :=
  DhilogSegment.ofParts
    { bareHeader 0x0100 (Bytes32.fill 1) (Bytes32.fill 2) Bytes32.zero with
      flags := flagSealed ||| flagEpochHashes } []

/-- Verifies four times, then diverges with another hash. -/
def lateFlake : Scripted :=
  { script := fun n =>
      if n < 4 then .ok (.verified (Bytes32.fill 7) 0)
      else .ok (.diverged
        { icountLo := 0
          icountHi := 0
          ripExpected := 0
          ripActual := 0
          regDiff := []
          diffPageIdx := []
          suspectedCause := ""
          endStateHash := Bytes32.fill 8 })
    next := 0 }

theorem phase1_agrees_of_recordedDivergence_bare :
    ∃ (report : DivergenceReport) (outcomes : List SegmentOutcome) (last : List HvCall),
      bisect (Bytes32.fill 1) hashedSegment (Bytes32.fill 7) bareIdentity {}
          (⟨lateFlake, []⟩ : Logged Scripted) =
        (.ok report, ⟨⟨lateFlake.script, 5⟩,
          outcomes.map (phase1Call (Bytes32.fill 1) hashedSegment bareIdentity) ++ last⟩) ∧
      (∀ o ∈ outcomes, ∀ o' ∈ outcomes, o = o') ∧
      Phase2Calls (Bytes32.fill 1) hashedSegment bareIdentity report last :=
  ⟨_, @phase1_agrees_of_recordedDivergence _ _ _ _ _ _ {} lateFlake ⟨lateFlake.script, 5⟩ _ rfl
    rfl⟩

/-- A hypervisor that verifies in every phase-1 run and diverges in the native
run is reported as a divergence of the recording, on two different hashes. -/
theorem bisect_blames_late_flake :
    ∃ (report : DivergenceReport) (flaked : Logged Scripted),
      bisect (Bytes32.fill 1) hashedSegment (Bytes32.fill 7) bareIdentity {}
          (⟨lateFlake, []⟩ : Logged Scripted) = (.ok report, flaked) ∧
      report.classification = .recordedDivergence ∧
      ∃ opts opts' outcome outcome',
        HvCall.verifySegment (Bytes32.fill 1) hashedSegment opts (.ok outcome) ∈ flaked.calls ∧
        HvCall.verifySegment (Bytes32.fill 1) hashedSegment opts' (.ok outcome') ∈
          flaked.calls ∧
        outcome.endStateHash ≠ outcome'.endStateHash := by
  refine ⟨_, _, rfl, rfl, ?_⟩
  refine ⟨⟨false, 1⟩, ⟨true, 1⟩, .verified (Bytes32.fill 7) 0, _,
    List.mem_of_getElem? (i := 0) rfl, List.mem_of_getElem? (i := 4) rfl, ?_⟩
  decide

end ReplayRenderer
