import ReplayRenderer.Lib.Meter
import ReplayRenderer.Verify.Skew

/-!
Runs and the budget. The mock spends one run of the budget for each run it
counts, the driver reports what has been spent, and neither looks at the
budget but to ask whether it is used up. So the report's count is the mock's,
and a budget that was not used up could have been any larger one.
-/

namespace ReplayRenderer

open Lib Lib.Outcome

/-! ### The budget as a meter -/

def RunBudget.raise (n : Nat) (b : RunBudget) : RunBudget :=
  ⟨b.maxRuns + n, b.used, b.used_le.trans (Nat.le_add_right _ _)⟩

@[simp] theorem RunBudget.used_raise (n : Nat) (b : RunBudget) : (b.raise n).used = b.used := rfl

theorem RunBudget.exhausted_eq_false {b : RunBudget} : b.exhausted = false ↔ b.used < b.maxRuns := by
  simp [RunBudget.exhausted]

theorem RunBudget.exhausted_raise {n : Nat} {b : RunBudget} (h : b.used < b.maxRuns) :
    (b.raise n).exhausted = b.exhausted := by
  have hlt : (b.raise n).used < (b.raise n).maxRuns := h.trans_le (Nat.le_add_right _ _)
  rw [RunBudget.exhausted_eq_false.mpr h, RunBudget.exhausted_eq_false.mpr hlt]

def runMeter {σ : Type} (runs : σ → Nat) : Meter (HvState σ) where
  used s := s.budget.used
  limit s := s.budget.maxRuns
  count s := runs s.hv
  raise n s := { s with budget := s.budget.raise n }

/-! ### The driver -/

theorem minWindow_ne_err {e : HvFault} (windows : List (Nat × Nat)) :
    minWindow windows ≠ .err e := by
  induction windows with
  | nil => simp [minWindow]
  | cons window rest ih =>
      refine bind_ne_err u64Sub_ne_err fun width => bind_ne_err ih fun narrowest => ?_
      cases narrowest with
      | none => simp
      | some narrowest =>
          simp only
          split <;> simp

section Driver

variable {σ : Type} [HypervisorReplay σ] {runs : σ → Nat}

/-- A hypervisor that keeps to its budget, and fails for want of one only
where none is left. -/
structure KeepsBudget (σ : Type) [HypervisorReplay σ] (runs : σ → Nat) : Prop where
  verifySegment : ∀ base segment opts, Metered (runMeter runs)
    (HypervisorReplay.verifySegment base segment opts :
      Proc (HvState σ) HvFault SegmentOutcome)
  runToIcount : ∀ base segment stop, Metered (runMeter runs)
    (HvState.runToIcount base segment stop : Proc (HvState σ) HvFault StateHash)
  ne_noBudget : ∀ base segment opts (s : HvState σ), s.budget.exhausted = false →
    (HypervisorReplay.verifySegment base segment opts s).1 ≠ .err .noBudget

omit [HypervisorReplay σ] in
theorem metered_exhausted : Metered (runMeter runs)
    (Proc.gets fun s => s.budget.exhausted : Proc (HvState σ) HvFault Bool) :=
  .gets fun _ _ hlt => RunBudget.exhausted_raise hlt

variable (hv : KeepsBudget σ runs) (base : SnapshotRef) (segment : DhilogSegment)
  (expected : StateHash) (identity : BisectIdentity)

include hv

theorem metered_phase1Runs {n : Nat} : ∀ {outcomes : List SegmentOutcome},
    Metered (runMeter runs) (phase1Runs base segment identity n outcomes :
      Proc (HvState σ) HvFault (List SegmentOutcome)) := by
  induction n with
  | zero => exact .pure _
  | succ n ih =>
      intro outcomes
      refine .bind metered_exhausted fun exhausted => .ite (.pure _) ?_
      exact .bind (hv.verifySegment _ _ _) fun outcome => ih

theorem metered_endState {phase1Diverged : Option Divergence} :
    Metered (runMeter runs) (endState base segment phase1Diverged :
      Proc (HvState σ) HvFault (StateHash × List RunFaultJson)) := by
  refine .bind metered_exhausted fun exhausted => .ite (.pure _) ?_
  refine .bind (.attempt (hv.runToIcount _ _ _)) fun result => ?_
  cases result with
  | ok h => exact .pure _
  | error fault => exact .pure _

theorem metered_phase2 {outcomes : List SegmentOutcome} :
    Metered (runMeter runs) (phase2 base segment expected identity outcomes :
      Proc (HvState σ) HvFault DivergenceReport) := by
  refine .bind metered_exhausted fun exhausted => .ite ?_ ?_
  · refine .bind (hv.verifySegment _ _ _) fun outcome => ?_
    refine .gets_bind (fun budget => ?_) fun s n hlt => ?_
    · cases outcome <;> exact .pure _
    · cases outcome <;>
        simp only [runMeter, RunBudget.used_raise, RunBudget.exhausted_raise hlt]
  · refine .bind (metered_endState hv base segment) fun result => ?_
    refine .gets_bind (fun budget => .pure _) fun s n hlt => ?_
    simp only [runMeter, RunBudget.used_raise, RunBudget.exhausted_raise hlt]

theorem metered_bisectPhases (opts : BisectOptions) :
    Metered (runMeter runs) (bisectPhases base segment expected identity opts :
      Proc (HvState σ) HvFault DivergenceReport) := by
  refine .ite (metered_phase2 hv base segment expected identity) ?_
  refine .bind (metered_phase1Runs hv base segment identity) fun outcomes => .ite ?_ ?_
  · exact metered_phase2 hv base segment expected identity
  · refine .bind (.lift _) fun window => .bind (.lift _) fun last => ?_
    refine .gets_bind (fun budget => .pure _) fun s n hlt => ?_
    simp only [runMeter, RunBudget.used_raise, RunBudget.exhausted_raise hlt]

theorem avoids_phase1Runs {n : Nat} : ∀ {outcomes : List SegmentOutcome},
    Avoids .noBudget (phase1Runs base segment identity n outcomes :
      Proc (HvState σ) HvFault (List SegmentOutcome)) := by
  induction n with
  | zero => exact .pure _
  | succ n ih =>
      intro outcomes s
      rw [phase1Runs, Proc.bind_apply_ok (Proc.gets_apply _ s)]
      cases hex : s.budget.exhausted with
      | true => simp [Proc.pure_apply]
      | false =>
          simp only [Bool.false_eq_true, if_false]
          exact Avoids.bind_at (hv.ne_noBudget _ _ _ s hex) (fun outcome => ih)

theorem avoids_phase2 {outcomes : List SegmentOutcome} :
    Avoids .noBudget (phase2 base segment expected identity outcomes :
      Proc (HvState σ) HvFault DivergenceReport) := by
  intro s
  rw [phase2, Proc.bind_apply_ok (Proc.gets_apply _ s)]
  split
  · rename_i h
    refine Avoids.bind_at (hv.ne_noBudget _ _ _ s h.2) fun outcome => .bind (.gets _) fun budget => ?_
    cases outcome <;> exact .pure _
  · -- the stop at the end is attempted: its failure is recorded
    refine Avoids.bind ?_ (fun result => .bind (.gets _) fun budget => .pure _) s
    refine .bind (.gets _) fun exhausted => .ite (.pure _) (.bind .attempt fun result => ?_)
    cases result <;> exact .pure _

theorem avoids_bisectPhases (opts : BisectOptions) :
    Avoids .noBudget (bisectPhases base segment expected identity opts :
      Proc (HvState σ) HvFault DivergenceReport) := by
  refine .ite (avoids_phase2 hv base segment expected identity) ?_
  refine .bind (avoids_phase1Runs hv base segment identity) fun outcomes => .ite ?_ ?_
  · exact avoids_phase2 hv base segment expected identity
  · refine .bind (.lift (minWindow_ne_err _)) fun window => .bind (.lift expect_ne_err) fun last => ?_
    exact .bind (.gets _) fun budget => .pure _

omit hv

/-! ### What a report says -/

/-- A report made at `s`: what has been spent there, and whether that is
all. -/
structure ReportedAt (report : DivergenceReport) (s : HvState σ) : Prop where
  runsUsed : report.runsUsed = s.budget.used
  budgetExhausted : report.budgetExhausted = s.budget.exhausted

theorem reportedAt_phase2 {outcomes : List SegmentOutcome} {s s' : HvState σ}
    {report : DivergenceReport}
    (h : phase2 base segment expected identity outcomes s = (.ok report, s')) :
    ReportedAt report s' := by
  rw [phase2, Proc.bind_apply_ok (Proc.gets_apply _ s)] at h
  split at h
  · obtain ⟨outcome, s₁, -, hrest⟩ := Proc.bind_eq_ok.mp h
    rw [Proc.bind_apply_ok (Proc.gets_apply _ s₁)] at hrest
    cases outcome with
    | diverged d =>
        obtain ⟨hreport, rfl⟩ := Prod.mk.inj hrest
        obtain rfl := Outcome.ok.inj hreport
        exact ⟨rfl, rfl⟩
    | verified endStateHash epochsOk =>
        obtain ⟨hreport, rfl⟩ := Prod.mk.inj hrest
        obtain rfl := Outcome.ok.inj hreport
        exact ⟨rfl, rfl⟩
  · obtain ⟨result, s₁, -, hrest⟩ := Proc.bind_eq_ok.mp h
    obtain ⟨hreport, rfl⟩ := Prod.mk.inj hrest
    obtain rfl := Outcome.ok.inj hreport
    exact ⟨rfl, rfl⟩

theorem reportedAt_bisectPhases {opts : BisectOptions} {s s' : HvState σ}
    {report : DivergenceReport}
    (h : bisectPhases base segment expected identity opts s = (.ok report, s')) :
    ReportedAt report s' := by
  unfold bisectPhases at h
  split at h
  · exact reportedAt_phase2 base segment expected identity h
  · obtain ⟨outcomes, s₁, -, hrest⟩ := Proc.bind_eq_ok.mp h
    split at hrest
    · exact reportedAt_phase2 base segment expected identity hrest
    · obtain ⟨window, s₂, -, hrest⟩ := Proc.bind_eq_ok.mp hrest
      obtain ⟨last, s₃, -, hrest⟩ := Proc.bind_eq_ok.mp hrest
      obtain ⟨hreport, rfl⟩ := Prod.mk.inj hrest
      obtain rfl := Outcome.ok.inj hreport
      exact ⟨rfl, rfl⟩

theorem bisect_eq_iff {opts : BisectOptions} {hv hv' : σ} {report : DivergenceReport} :
    bisect base segment expected identity opts hv = (.ok report, hv') ↔
      ∃ s', bisectPhases base segment expected identity opts ⟨hv, RunBudget.new opts.maxRuns, []⟩ =
        (.ok report, s') ∧ s'.hv = hv' := by
  rw [bisect]
  rcases bisectPhases base segment expected identity opts ⟨hv, RunBudget.new opts.maxRuns, []⟩
    with ⟨result, s'⟩
  simp only [Prod.mk.injEq]
  constructor
  · rintro ⟨rfl, rfl⟩
    exact ⟨s', ⟨rfl, rfl⟩, rfl⟩
  · rintro ⟨t, ⟨rfl, rfl⟩, rfl⟩
    exact ⟨rfl, rfl⟩

end Driver

/-! ### The mock -/

section Mock

variable {blake3 : Bytes → Bytes32}

/-- A piece of the mock: it keeps to the budget, and does not complain of
it. -/
structure Probe {α : Type} (x : Proc (HvState (MockHypervisor blake3)) HvFault α) : Prop where
  metered : Metered (runMeter MockHypervisor.runs) x
  avoids : Avoids .noBudget x

namespace Probe

variable {α β : Type}

theorem pure (a : α) : Probe (Pure.pure a : Proc (HvState (MockHypervisor blake3)) HvFault α) :=
  ⟨.pure a, .pure a⟩

theorem lift {x : Outcome HvFault α} (h : x ≠ .err .noBudget) :
    Probe (Proc.lift x : Proc (HvState (MockHypervisor blake3)) HvFault α) := ⟨.lift x, .lift h⟩

theorem bind {x : Proc (HvState (MockHypervisor blake3)) HvFault α}
    {f : α → Proc (HvState (MockHypervisor blake3)) HvFault β} (hx : Probe x)
    (hf : ∀ a, Probe (f a)) : Probe (x >>= f) :=
  ⟨.bind hx.metered fun a => (hf a).metered, .bind hx.avoids fun a => (hf a).avoids⟩

theorem ite {p : Prop} [Decidable p]
    {x y : Proc (HvState (MockHypervisor blake3)) HvFault α} (hx : Probe x) (hy : Probe y) :
    Probe (if p then x else y) := by
  split
  · exact hx
  · exact hy

theorem sendEvent (event : VerifyEvent) :
    Probe (sendEvent event : Proc (HvState (MockHypervisor blake3)) HvFault Unit) :=
  ⟨.modify (fun _ => ⟨rfl, le_refl _, rfl⟩) fun _ _ => rfl, .modify _⟩

theorem defect : Probe (Proc.gets fun s => s.hv.defect :
    Proc (HvState (MockHypervisor blake3)) HvFault InjectedDefect) :=
  ⟨.gets fun _ _ _ => rfl, .gets _⟩

/-- One run of the budget is one run counted. -/
theorem spendRun : Probe (spendRun : Proc (HvState (MockHypervisor blake3)) HvFault _) where
  metered :=
    { spends := by
        intro s
        by_cases h : s.budget.used < s.budget.maxRuns
        · rw [ReplayRenderer.spendRun, RunBudget.tryConsume_of_lt h]
          refine ⟨rfl, Nat.le_succ _, ?_⟩
          simp only [runMeter]
          omega
        · rw [ReplayRenderer.spendRun, RunBudget.tryConsume_of_le (not_lt.mp h)]
          exact .refl s
      unseen := by
        intro s n
        by_cases h : s.budget.used < s.budget.maxRuns
        · have hraised : (s.budget.raise n).used < (s.budget.raise n).maxRuns :=
            h.trans_le (Nat.le_add_right _ _)
          intro _
          rw [ReplayRenderer.spendRun, ReplayRenderer.spendRun, RunBudget.tryConsume_of_lt h]
          simp only [runMeter, RunBudget.tryConsume_of_lt hraised]
          rfl
        · rw [ReplayRenderer.spendRun, RunBudget.tryConsume_of_le (not_lt.mp h)]
          exact fun hlt => absurd hlt h }
  avoids := by
    intro s
    rw [ReplayRenderer.spendRun]
    split <;> simp

end Probe

/-! The simulations do not touch the budget and do not fail for want of it. -/

theorem stepTo_ne_err {ε : Type} {e : ε} (sim : GuestSim) (target : Nat) :
    (sim.stepTo blake3 target : Outcome ε GuestSim) ≠ .err e := by
  have hcross : ∀ (fuel next : Nat) (sim : GuestSim),
      (GuestSim.crossBoundaries blake3 target fuel next sim : Outcome ε GuestSim) ≠ .err e := by
    intro fuel
    induction fuel with
    | zero => exact fun next sim => ok_ne_err
    | succ fuel ih =>
        intro next sim
        rw [GuestSim.crossBoundaries]
        split
        · exact bind_ne_err u64Add_ne_err fun next => ih next _
        · exact ok_ne_err
  refine bind_ne_err require_ne_err fun _ => bind_ne_err u64Mul_ne_err fun next => ?_
  exact bind_ne_err (hcross _ _ _) fun sim => ok_ne_err

theorem VirtualFold.apply_ne_err {ε : Type} {e : ε} (fold : VirtualFold) (sim : GuestSim) :
    (fold.apply blake3 sim : Outcome ε _) ≠ .err e :=
  bind_ne_err (stepTo_ne_err sim _) fun _ => ok_ne_err

theorem VirtualFold.maybeApply_ne_err {ε : Type} {e : ε} (fold : VirtualFold) (sim : GuestSim)
    (nextIcount : Nat) (nextIsEpochRecord : Bool) :
    (fold.maybeApply blake3 sim nextIcount nextIsEpochRecord : Outcome ε _) ≠ .err e := by
  unfold VirtualFold.maybeApply
  split
  · exact fold.apply_ne_err sim
  · exact ok_ne_err

theorem VirtualFold.finish_ne_err {ε : Type} {e : ε} (fold : VirtualFold) (sim : GuestSim)
    (stop : Nat) : (fold.finish blake3 sim stop : Outcome ε _) ≠ .err e := by
  unfold VirtualFold.finish
  split
  · exact fold.apply_ne_err sim
  · exact ok_ne_err

theorem appliable_ne_noBudget (item : RecordItem) : appliable item ≠ .err .noBudget := by
  cases item with
  | ok x => exact ok_ne_err
  | error e => simp [appliable]

theorem foldRecord_ne_noBudget (sim : GuestSim) (rec : Record) :
    foldRecord blake3 sim rec ≠ .err .noBudget := by
  unfold foldRecord
  split
  · exact bind_ne_err (stepTo_ne_err sim _) fun sim => ok_ne_err
  · simp

theorem applyRecord_ne_noBudget (sim : GuestSim) (rec : Record) :
    applyRecord blake3 sim rec ≠ .err .noBudget := by
  unfold applyRecord
  split
  · exact foldRecord_ne_noBudget sim rec
  · exact stepTo_ne_err sim _

theorem simLoop_ne_noBudget {stop : Nat} (items : List RecordItem) :
    ∀ (fold : VirtualFold) (sim : GuestSim), simLoop blake3 stop fold sim items ≠ .err .noBudget := by
  induction items with
  | nil => exact fun fold sim => ok_ne_err
  | cons item items ih =>
      intro fold sim
      refine bind_ne_err (appliable_ne_noBudget item) fun rec => ?_
      split
      · exact ok_ne_err
      · refine bind_ne_err (fold.maybeApply_ne_err sim _ _) fun ⟨fold, sim⟩ => ?_
        exact bind_ne_err (applyRecord_ne_noBudget sim rec) fun sim => ih fold sim

theorem records_ne_err {ε : Type} {e : ε} (segment : DhilogSegment) :
    (segment.records : Outcome ε _) ≠ .err e := by
  obtain ⟨items, hitems, -⟩ := segment.records_eq_ok (ε := ε)
  rw [hitems]
  exact ok_ne_err

theorem simTo_ne_noBudget (defect : InjectedDefect) (segment : DhilogSegment) (stop : Nat)
    (side : Side) (segmentIndex : UInt32) :
    simTo blake3 defect segment stop side segmentIndex ≠ .err .noBudget := by
  refine bind_ne_err (records_ne_err segment) fun items => ?_
  refine bind_ne_err (simLoop_ne_noBudget items _ _) fun ⟨fold, sim⟩ => ?_
  exact bind_ne_err (fold.finish_ne_err sim stop) fun ⟨_, sim⟩ => stepTo_ne_err sim stop

theorem decodeEpoch_ne_err {ε : Type} {e : ε} (rec : Record) :
    (rec.decodeEpoch : Outcome ε _) ≠ .err e :=
  bind_ne_err u64At_ne_err fun _ => bind_ne_err bytes32At_ne_err fun _ => ok_ne_err

theorem recordedEpochs_ne_err {ε : Type} {e : ε} (items : List RecordItem) :
    (recordedEpochs items : Outcome ε _) ≠ .err e := by
  induction items with
  | nil => exact ok_ne_err
  | cons item items ih =>
      cases item with
      | error e => exact ih
      | ok x =>
          rw [recordedEpochs]
          split
          · exact bind_ne_err (decodeEpoch_ne_err _) fun epoch => bind_ne_err ih fun _ => ok_ne_err
          · exact ih

theorem finishReplay_ne_noBudget (endIcount : Nat) (st : HonestReplay) :
    finishReplay blake3 endIcount st ≠ .err .noBudget :=
  bind_ne_err (st.fold.finish_ne_err st.sim endIcount) fun ⟨_, sim⟩ =>
    bind_ne_err (stepTo_ne_err sim endIcount) fun _ => ok_ne_err

theorem compareEpoch_ne_noBudget (sim : GuestSim) (rec : Record) :
    compareEpoch blake3 sim rec ≠ .err .noBudget := by
  refine bind_ne_err (by simp) fun _ => bind_ne_err (decodeEpoch_ne_err rec) fun epoch => ?_
  exact bind_ne_err (stepTo_ne_err sim _) fun sim => by simp

theorem replayVerdict_ne_noBudget (h : DhilogHeader) (st : HonestReplay) :
    replayVerdict blake3 h st ≠ .err .noBudget := by
  unfold replayVerdict
  split
  · exact ok_ne_err
  · exact bind_ne_err (finishReplay_ne_noBudget _ st) fun st => ok_ne_err

theorem agreesAt_ne_noBudget (defect : InjectedDefect) (segment : DhilogSegment) (side : Side)
    (segmentIndex : UInt32) (icount : Nat) :
    agreesAt defect segment side segmentIndex blake3 icount ≠ .err .noBudget :=
  bind_ne_err (simTo_ne_noBudget _ _ _ _ _) fun _ =>
    bind_ne_err (simTo_ne_noBudget _ _ _ _ _) fun _ => ok_ne_err

theorem EpochSearch.window_ne_err {e : HvFault} (st : EpochSearch) (epochs : List RecordedEpoch) :
    st.window epochs ≠ .err e := by
  unfold EpochSearch.window
  split
  · exact ok_ne_err
  · refine bind_ne_err expect_ne_err fun badEpoch => ?_
    split
    · exact bind_ne_err expect_ne_err fun goodEpoch => ok_ne_err
    · exact ok_ne_err

theorem diagnostics_ne_err {e : HvFault} (defect : InjectedDefect) (segment : DhilogSegment)
    (window : Nat × Nat) (at_ : Nat) (segmentIndex : UInt32) (runIndex : Nat)
    (endStateHash : StateHash) :
    diagnostics blake3 defect segment window at_ segmentIndex runIndex endStateHash ≠ .err e :=
  bind_ne_err unwrapOr_ne_err fun _ => bind_ne_err unwrapOr_ne_err fun _ => ok_ne_err

/-! ### The mock keeps to its budget -/

theorem probe_honestLoop {endIcount : Nat} {segmentIndex : UInt32} (items : List RecordItem) :
    ∀ st : HonestReplay, Probe (honestLoop endIcount segmentIndex st items :
      Proc (HvState (MockHypervisor blake3)) HvFault HonestReplay) := by
  induction items with
  | nil => exact fun st => .pure st
  | cons item items ih =>
      intro st
      refine .bind (.lift (appliable_ne_noBudget item)) fun rec => ?_
      refine .bind (.lift (st.fold.maybeApply_ne_err _ _ _)) fun ⟨fold, sim⟩ => ?_
      refine .ite (.bind (.lift (foldRecord_ne_noBudget sim rec)) fun sim => ih _) (.ite ?_ (.ite ?_ ?_))
      · refine .bind (.lift (compareEpoch_ne_noBudget sim rec)) fun ⟨sim, epoch⟩ => ?_
        exact .ite (.bind (.sendEvent _) fun _ => ih _) (.pure _)
      · exact .bind (.lift (finishReplay_ne_noBudget _ _)) fun st => ih st
      · exact .bind (.lift (stepTo_ne_err sim _)) fun sim => ih _

section Bisection

variable (defect : InjectedDefect) (segment : DhilogSegment) (side : Side) (segmentIndex : UInt32)

theorem probe_epochLoop {epochs : List RecordedEpoch} {fuel : Nat} :
    ∀ st : EpochSearch, Probe (epochLoop defect segment side segmentIndex epochs fuel st :
      Proc (HvState (MockHypervisor blake3)) HvFault EpochSearch) := by
  induction fuel with
  | zero => exact fun st => .pure st
  | succ fuel ih =>
      intro st
      refine .ite (.pure st) (.bind .spendRun fun run => ?_)
      cases run with
      | none => exact .pure st
      | some run =>
          refine .bind (.lift expect_ne_err) fun epoch => ?_
          refine .bind (.lift (simTo_ne_noBudget _ _ _ _ _)) fun probe => ?_
          exact .ite (ih _) (.ite (.pure _) (ih _))

theorem probe_narrowLoop {fuel : Nat} :
    ∀ st : IcountSearch, Probe (narrowLoop defect segment side segmentIndex fuel st :
      Proc (HvState (MockHypervisor blake3)) HvFault IcountSearch) := by
  induction fuel with
  | zero => exact fun st => .pure st
  | succ fuel ih =>
      intro st
      refine .ite (.bind .spendRun fun run => ?_) (.pure st)
      cases run with
      | none => exact .pure st
      | some run =>
          refine .bind (.lift (agreesAt_ne_noBudget _ _ _ _ _)) fun agrees => ?_
          exact .ite (ih _) (ih _)

theorem probe_lastProbe (st : IcountSearch) :
    Probe (lastProbe defect segment side segmentIndex st :
      Proc (HvState (MockHypervisor blake3)) HvFault (IcountSearch × Option Nat)) := by
  refine .ite (.bind .spendRun fun run => ?_) (.pure _)
  cases run with
  | none => exact .pure _
  | some run =>
      refine .bind (.lift (agreesAt_ne_noBudget _ _ _ _ _)) fun agrees => ?_
      exact .ite (.pure _) (.pure _)

theorem probe_nativeWindow (items : List RecordItem) :
    Probe (nativeWindow defect segment side segmentIndex items :
      Proc (HvState (MockHypervisor blake3)) HvFault ((Nat × Nat) × Nat)) := by
  refine .bind (.lift (recordedEpochs_ne_err items)) fun epochs => .bind (.ite (.pure _) ?_) ?_
  · refine .bind (probe_epochLoop defect segment side segmentIndex _) fun st => ?_
    exact .lift (st.window_ne_err epochs)
  · rintro ⟨lo, hi⟩
    refine .bind (probe_narrowLoop defect segment side segmentIndex _) fun st => ?_
    exact .bind (probe_lastProbe defect segment side segmentIndex st) fun ⟨_, _⟩ => .pure _

theorem probe_reportDivergence (opts : VerifyOpts) (runIndex : Nat) (items : List RecordItem) :
    Probe (reportDivergence defect segment opts runIndex items :
      Proc (HvState (MockHypervisor blake3)) HvFault SegmentOutcome) := by
  refine .bind (.lift (simTo_ne_noBudget _ _ _ _ _)) fun endSim => .ite ?_ ?_
  · exact .bind (.lift (diagnostics_ne_err _ _ _ _ _ _ _)) fun d => .pure _
  · refine .bind (probe_nativeWindow defect segment _ _ items) fun ⟨window, at_⟩ => ?_
    exact .bind (.lift (diagnostics_ne_err _ _ _ _ _ _ _)) fun d => .pure _

end Bisection

theorem probe_verifyRun (segment : DhilogSegment) (opts : VerifyOpts) (runIndex : Nat) :
    Probe (do
      sendEvent (.segmentStarted opts.segmentIndex)
      let defect ← Proc.gets fun s => s.hv.defect
      let items ← Proc.lift segment.records
      let st ← honestLoop segment.header.endIcount.toNat opts.segmentIndex
        { fold := defect.foldFor (.replayed runIndex) opts.segmentIndex
          sim := GuestSim.new blake3 segment.header.machineConfigHash
            segment.header.baseSnapshotId
          epochsOk := 0
          firstBadEpoch := none } items
      let (diverged, st) ← Proc.lift (replayVerdict blake3 segment.header st)
      sendEvent (.runCompleted opts.segmentIndex)
      if diverged then reportDivergence defect segment opts runIndex items
      else pure (.verified (st.sim.chainValue blake3) st.epochsOk) :
      Proc (HvState (MockHypervisor blake3)) HvFault SegmentOutcome) := by
  refine .bind (.sendEvent _) fun _ => .bind .defect fun defect => ?_
  refine .bind (.lift (records_ne_err segment)) fun items => ?_
  refine .bind (probe_honestLoop items _) fun st => ?_
  refine .bind (.lift (replayVerdict_ne_noBudget _ st)) fun ⟨diverged, st⟩ => ?_
  refine .bind (.sendEvent _) fun _ => .ite ?_ (.pure _)
  exact probe_reportDivergence defect segment opts runIndex items

theorem metered_verifySegment (base : SnapshotRef) (segment : DhilogSegment) (opts : VerifyOpts) :
    Metered (runMeter MockHypervisor.runs) (MockHypervisor.verifySegment base segment opts :
      Proc (HvState (MockHypervisor blake3)) HvFault SegmentOutcome) := by
  refine .bind (.lift _) fun _ => .bind Probe.spendRun.metered fun run => ?_
  cases run with
  | none => exact .lift _
  | some runIndex => exact (probe_verifyRun segment opts runIndex).metered

theorem verifySegment_ne_noBudget (base : SnapshotRef) (segment : DhilogSegment)
    (opts : VerifyOpts) {s : HvState (MockHypervisor blake3)} (h : s.budget.exhausted = false) :
    (MockHypervisor.verifySegment base segment opts s).1 ≠ .err .noBudget := by
  rw [MockHypervisor.verifySegment]
  by_cases hbase : base = segment.header.baseSnapshotId
  · rw [Proc.lift_bind_apply (rejectIf_neg (not_not.mpr hbase))]
    rw [Proc.bind_apply_ok (spendRun_of_lt (RunBudget.exhausted_eq_false.mp h))]
    exact (probe_verifyRun segment opts s.hv.runs).avoids _
  · rw [Proc.bind_apply, Proc.lift_apply, rejectIf_pos hbase]
    simp

theorem metered_runToIcount (base : SnapshotRef) (segment : DhilogSegment) (stop : Nat) :
    Metered (runMeter MockHypervisor.runs) (MockHypervisor.runToIcount base segment stop :
      Proc (HvState (MockHypervisor blake3)) HvFault StateHash) := by
  refine .bind (.lift _) fun _ => .bind (.lift _) fun _ => ?_
  refine .bind Probe.spendRun.metered fun run => ?_
  cases run with
  | none => exact .lift _
  | some runIndex =>
      exact .bind Probe.defect.metered fun defect => .bind (.lift _) fun sim => .pure _

theorem keepsBudget_mock (blake3 : Bytes → Bytes32) :
    KeepsBudget (MockHypervisor blake3) MockHypervisor.runs where
  verifySegment := metered_verifySegment
  runToIcount base segment stop :=
    { spends := fun s =>
        have h := (metered_runToIcount base segment stop).spends ⟨s.hv, s.budget, []⟩
        ⟨h.limit_eq, h.used_le, h.count_eq⟩
      unseen := fun s n hlt => by
        have h := (metered_runToIcount base segment stop).unseen ⟨s.hv, s.budget, []⟩ n hlt
        have hraise : HvState.runToIcount base segment stop ((runMeter MockHypervisor.runs).raise n s) =
            ((MockHypervisor.runToIcount base segment stop
                ((runMeter MockHypervisor.runs).raise n ⟨s.hv, s.budget, []⟩)).1,
              { (MockHypervisor.runToIcount base segment stop
                ((runMeter MockHypervisor.runs).raise n ⟨s.hv, s.budget, []⟩)).2 with
                events := s.events }) := rfl
        rw [hraise, h]
        rfl }
  ne_noBudget base segment opts s h := verifySegment_ne_noBudget base segment opts h

end Mock

/-! ### What the budget means for a report -/

section Reports

variable (blake3 : Bytes → Bytes32) (hv : MockHypervisor blake3) (base : SnapshotRef)
  (segment : DhilogSegment) (expected : StateHash) (identity : BisectIdentity)
  (opts : BisectOptions)

variable {blake3 hv base segment expected identity opts} in
/-- The report's count is the mock's, and the budget's. -/
theorem counts_of_bisect {report : DivergenceReport} {hv' : MockHypervisor blake3}
    (h : bisect base segment expected identity opts hv = (.ok report, hv')) :
    hv'.runs = hv.runs + report.runsUsed ∧ report.runsUsed ≤ opts.maxRuns ∧
      (report.budgetExhausted = true ↔ report.runsUsed = opts.maxRuns) := by
  obtain ⟨s', hrun, rfl⟩ := (bisect_eq_iff base segment expected identity).mp h
  have hspends := (metered_bisectPhases (keepsBudget_mock blake3) base segment expected identity
    opts).spends ⟨hv, RunBudget.new opts.maxRuns, []⟩
  rw [hrun] at hspends
  have hlimit : s'.budget.maxRuns = opts.maxRuns := hspends.limit_eq
  have hcount : s'.hv.runs + 0 = hv.runs + s'.budget.used := hspends.count_eq
  have hle := s'.budget.used_le
  obtain ⟨hused, hexhausted⟩ := reportedAt_bisectPhases base segment expected identity hrun
  rw [hused, hexhausted, RunBudget.exhausted, decide_eq_true_eq]
  omega

/-- A report counts the runs that were made, within the budget, and says
whether they were all of it; and no bisection fails for want of one. -/
theorem bisect_counts_runs :
    (bisect base segment expected identity opts hv).1 ≠ .err .noBudget ∧
      ∀ report hv', bisect base segment expected identity opts hv = (.ok report, hv') →
        hv'.runs = hv.runs + report.runsUsed ∧ report.runsUsed ≤ opts.maxRuns ∧
          (report.budgetExhausted = true ↔ report.runsUsed = opts.maxRuns) :=
  ⟨avoids_bisectPhases (keepsBudget_mock blake3) base segment expected identity opts
      ⟨hv, RunBudget.new opts.maxRuns, []⟩,
    fun _ _ h => counts_of_bisect h⟩

/-- With a budget that was not used up, any larger one gives the same
report. -/
theorem bisect_budget_unseen {report : DivergenceReport} {hv' : MockHypervisor blake3}
    (h : bisect base segment expected identity opts hv = (.ok report, hv'))
    (hleft : report.budgetExhausted = false) {m' : Nat} (hm : opts.maxRuns < m') :
    bisect base segment expected identity { opts with maxRuns := m' } hv = (.ok report, hv') := by
  obtain ⟨s', hrun, rfl⟩ := (bisect_eq_iff base segment expected identity).mp h
  have hmetered := metered_bisectPhases (keepsBudget_mock blake3) base segment expected identity opts
  have hspends := hmetered.spends ⟨hv, RunBudget.new opts.maxRuns, []⟩
  have hunseen := hmetered.unseen ⟨hv, RunBudget.new opts.maxRuns, []⟩ (m' - opts.maxRuns)
  rw [hrun] at hspends hunseen
  have hbelow : s'.budget.used < opts.maxRuns := by
    rw [(reportedAt_bisectPhases base segment expected identity hrun).budgetExhausted,
      RunBudget.exhausted_eq_false] at hleft
    rwa [show s'.budget.maxRuns = opts.maxRuns from hspends.limit_eq] at hleft
  have hraise : (runMeter MockHypervisor.runs).raise (m' - opts.maxRuns)
      ⟨hv, RunBudget.new opts.maxRuns, []⟩ = ⟨hv, RunBudget.new m', []⟩ := by
    simp only [runMeter, RunBudget.raise, RunBudget.new, Nat.add_sub_cancel' hm.le]
  have hlarger := hunseen hbelow
  rw [hraise] at hlarger
  exact (bisect_eq_iff base segment expected identity).mpr ⟨_, hlarger, rfl⟩

end Reports

/-! ### A skew in the last epoch -/

def lateSkewed : MockHypervisor Blake3.hash :=
  MockHypervisor.new Blake3.hash (.recordedSkew bareIdentity.segmentIndex 12286)

/-- Seven runs are spent in the search over the epochs. Of 64 the native
search takes 16, after the four of phase 1. -/
theorem lateSkew_reported :
    isOkAnd (fun (bytes, hash) =>
        isOkAnd (fun segment =>
            isOkAnd (fun report : DivergenceReport => report.runsUsed = 7)
                (bisect threeEpochs.baseSnapshotId segment hash bareIdentity { maxRuns := 7 }
                  lateSkewed).1 &&
              isOkAnd (fun report : DivergenceReport => report.runsUsed = 20)
                (bisect threeEpochs.baseSnapshotId segment hash bareIdentity {} lateSkewed).1)
          (DhilogSegment.parse bytes))
      (writeSegment Blake3.hash threeEpochs : Outcome HvFault _) = true := by
  decide +kernel

/-- What `lateSkew_reported` computes, as two calls. -/
theorem exists_lateSkew_reports :
    ∃ bytes hash, (writeSegment Blake3.hash threeEpochs : Outcome HvFault _) = .ok (bytes, hash) ∧
      ∃ segment, DhilogSegment.parse bytes = .ok segment ∧
        (∃ report mock', bisect threeEpochs.baseSnapshotId segment hash bareIdentity
            { maxRuns := 7 } lateSkewed = (.ok report, mock') ∧ report.runsUsed = 7) ∧
        ∃ report mock', bisect threeEpochs.baseSnapshotId segment hash bareIdentity {}
            lateSkewed = (.ok report, mock') ∧ report.runsUsed = 20 := by
  obtain ⟨⟨bytes, hash⟩, hwrite, hcheck⟩ := isOkAnd_iff.mp lateSkew_reported
  obtain ⟨segment, hparse, hcheck⟩ := isOkAnd_iff.mp hcheck
  obtain ⟨hspent, hleft⟩ := Bool.and_eq_true_iff.mp hcheck
  obtain ⟨report, hreport, hused⟩ := isOkAnd_iff.mp hspent
  obtain ⟨report', hreport', hused'⟩ := isOkAnd_iff.mp hleft
  exact ⟨bytes, hash, hwrite, segment, hparse,
    ⟨report, _, Prod.ext hreport rfl, of_decide_eq_true hused⟩,
    report', _, Prod.ext hreport' rfl, of_decide_eq_true hused'⟩

/-- One call that spends its budget, and one that does not. -/
theorem bisect_counts_runs_threeEpochs :
    ∃ bytes hash, (writeSegment Blake3.hash threeEpochs : Outcome HvFault _) = .ok (bytes, hash) ∧
      ∃ segment, DhilogSegment.parse bytes = .ok segment ∧
        (∃ report mock', bisect threeEpochs.baseSnapshotId segment hash bareIdentity
            { maxRuns := 7 } lateSkewed = (.ok report, mock') ∧
          report.runsUsed = 7 ∧ mock'.runs = 7 ∧ report.budgetExhausted = true) ∧
        ∃ report mock', bisect threeEpochs.baseSnapshotId segment hash bareIdentity {}
            lateSkewed = (.ok report, mock') ∧
          report.runsUsed = 20 ∧ mock'.runs = 20 ∧ report.budgetExhausted = false := by
  obtain ⟨bytes, hash, hwrite, segment, hparse, ⟨report, mock', hspent, hused⟩, report', mock'',
    hleft, hused'⟩ := exists_lateSkew_reports
  obtain ⟨hruns, -, hexhausted⟩ := (bisect_counts_runs Blake3.hash lateSkewed _ segment hash
    bareIdentity { maxRuns := 7 }).2 report mock' hspent
  obtain ⟨hruns', -, hexhausted'⟩ := (bisect_counts_runs Blake3.hash lateSkewed _ segment hash
    bareIdentity {}).2 report' mock'' hleft
  rw [hused, lateSkewed, MockHypervisor.new, Nat.zero_add] at hruns
  rw [hused', lateSkewed, MockHypervisor.new, Nat.zero_add] at hruns'
  refine ⟨bytes, hash, hwrite, segment, hparse,
    ⟨report, mock', hspent, hused, hruns, hexhausted.mpr hused⟩,
    report', mock'', hleft, hused', hruns', ?_⟩
  rw [Bool.eq_false_iff, ne_eq, hexhausted', hused']
  decide

/-- Both phases, with 64 runs and with 65. -/
theorem bisect_budget_unseen_threeEpochs :
    ∃ bytes hash, (writeSegment Blake3.hash threeEpochs : Outcome HvFault _) = .ok (bytes, hash) ∧
      ∃ segment, DhilogSegment.parse bytes = .ok segment ∧ ∃ report mock',
        bisect threeEpochs.baseSnapshotId segment hash bareIdentity {} lateSkewed =
          (.ok report, mock') ∧
        report.runsUsed = 20 ∧ report.budgetExhausted = false ∧
        bisect threeEpochs.baseSnapshotId segment hash bareIdentity { maxRuns := 65 } lateSkewed =
          (.ok report, mock') := by
  obtain ⟨bytes, hash, hwrite, segment, hparse, -, report, mock', hrun, hused⟩ :=
    exists_lateSkew_reports
  have hleft : report.budgetExhausted = false := by
    rw [Bool.eq_false_iff, ne_eq, (counts_of_bisect hrun).2.2, hused]
    decide
  exact ⟨bytes, hash, hwrite, segment, hparse, report, mock', hrun, hused, hleft,
    bisect_budget_unseen Blake3.hash _ _ _ _ _ {} hrun hleft (by decide)⟩

end ReplayRenderer
