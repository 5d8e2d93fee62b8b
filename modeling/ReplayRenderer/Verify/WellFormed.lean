import ReplayRenderer.Verify.Bisect
import ReplayRenderer.Verify.ReportJson

/-!
Every report of a bisection is well formed. Each of its exits leaves one
offset inside the segment, the diagnostics of the native bisection or none,
and the fault of the last stop or none; and the document of such a report is
accepted by the schema.
-/

namespace ReplayRenderer

open Lib Lib.Outcome

/-! ### What a report is made of -/

structure BisectIdentity.Conforms (identity : BisectIdentity) : Prop where
  jobId : ReportSchema.ulid.Accepts (.str identity.jobId)
  sourceJobId : ReportSchema.ulid.Accepts (.str identity.sourceJobId)
  experimentId : identity.experimentId ≠ ""
  hypervisorVersion : identity.hypervisorVersion ≠ ""
  segmentIndex : 1 ≤ identity.segmentIndex.toNat

section MakeReport

variable {identity : BisectIdentity} {classification : Classification} {lo hi end_ : Nat}
  {diagnostics : Option SegmentOutcome} {expected actual : StateHash} {used : Nat}
  {exhausted : Bool} {runFaults : List RunFaultJson}

theorem located_makeReport (hle : lo ≤ hi) (hend : hi ≤ end_) :
    (makeReport identity classification (lo, hi) diagnostics expected actual used exhausted
      runFaults).Located end_ := by
  by_cases h : (lo == hi && classification == .recordedDivergence) = true
  · have hclass : classification = .recordedDivergence := (by simpa using h : _ ∧ _).2
    exact .exact (if_pos h) hclass (if_pos h) (if_pos h) (hle.trans hend)
  · exact .window (if_neg h) (if_neg h) (if_neg h) hle hend

theorem located_with_diffPageIdx {report : DivergenceReport} {diffPageIdx : Option (List Nat)}
    (h : report.Located end_) : ({ report with diffPageIdx } : DivergenceReport).Located end_ := by
  cases h with
  | exact hoffset hclass hicount hwindow hle => exact .exact hoffset hclass hicount hwindow hle
  | window hoffset hicount hwindow hle hend => exact .window hoffset hicount hwindow hle hend

/-- A report has the diagnostics that its divergence has, in hexadecimal. -/
theorem conforms_makeReport {window : Nat × Nat} (hidentity : identity.Conforms)
    (hnames : ∀ d, diagnostics = some (.diverged d) → ∀ reg ∈ d.regDiff, reg.name ≠ "")
    (hfaults : ∀ fault ∈ runFaults, fault.kind ≠ "")
    (hlocated : (makeReport identity classification window diagnostics expected actual used
      exhausted runFaults).Located end_) :
    (makeReport identity classification window diagnostics expected actual used exhausted
      runFaults).Conforms := by
  exact
    { version := rfl
      jobId := hidentity.jobId
      sourceJobId := hidentity.sourceJobId
      experimentId := hidentity.experimentId
      segmentIndex := hidentity.segmentIndex
      located := ⟨end_, hlocated⟩
      ripExpected := by
        rcases diagnostics with _ | _ | d
        · simp [makeReport]
        · simp [makeReport]
        · rintro _ ⟨⟩
          exact accepts_hexU64 d.ripExpected
      ripActual := by
        rcases diagnostics with _ | _ | d
        · simp [makeReport]
        · simp [makeReport]
        · rintro _ ⟨⟩
          exact accepts_hexU64 d.ripActual
      regDiff := by
        rcases diagnostics with _ | _ | d
        · simp [makeReport]
        · simp [makeReport]
        · rintro _ ⟨⟩ reg hreg
          obtain ⟨r, hr, rfl⟩ := List.mem_map.mp hreg
          exact ⟨hnames d rfl r hr, accepts_hexU64 r.expected, accepts_hexU64 r.actual⟩
      diagnosed := by
        rcases diagnostics with _ | _ | d
        · simp [makeReport]
        · simp [makeReport]
        · simp [makeReport]
      expectedHash := accepts_b3Hex expected
      actualHash := accepts_b3Hex actual
      runFaults := hfaults
      replayRenderer := by simp [makeReport]
      hypervisor := hidentity.hypervisorVersion
      dhilog := rfl
      registryId := by simp [makeReport]
      blake3 := accepts_b3Hex identity.dilogBlake3
      reproCmd := by simp [makeReport] }

theorem conforms_with_diffPageIdx {report : DivergenceReport} {diffPageIdx : Option (List Nat)}
    (h : report.Conforms) (hnone : report.ripExpected = none) :
    ({ report with diffPageIdx } : DivergenceReport).Conforms := by
  obtain ⟨end_, hlocated⟩ := h.located
  exact
    { h with
      located := ⟨end_, located_with_diffPageIdx hlocated⟩
      diagnosed := by simp [hnone] }

end MakeReport

/-! ### What the log says of it -/

structure DivergenceReport.Carries (report : DivergenceReport) (d : Divergence) : Prop where
  ripExpected : report.ripExpected = some (hexU64 d.ripExpected)
  ripActual : report.ripActual = some (hexU64 d.ripActual)
  regDiff : report.regDiff = some (d.regDiff.map fun r =>
    { name := r.name, expected := hexU64 r.expected, actual := hexU64 r.actual })
  diffPageIdx : report.diffPageIdx = some d.diffPageIdx
  suspectedCause : report.suspectedCause = some d.suspectedCause

structure DivergenceReport.CarriesNone (report : DivergenceReport) : Prop where
  ripExpected : report.ripExpected = none
  ripActual : report.ripActual = none
  regDiff : report.regDiff = none
  suspectedCause : report.suspectedCause = none

section Evidence

variable (base : SnapshotRef) (segment : DhilogSegment) (identity : BisectIdentity)
  (calls : List HvCall)

def NativeDiverged (d : Divergence) : Prop :=
  nativeCall base segment identity (.diverged d) ∈ calls

/-- The recording was blamed without one, after a phase-1 run that diverged. -/
def FellBackDiverged (report : DivergenceReport) : Prop :=
  report.classification = .recordedDivergence ∧
    (∀ outcome, nativeCall base segment identity outcome ∉ calls) ∧
    ∃ d, phase1Call base segment identity (.diverged d) ∈ calls

/-- What a report shows is what the calls have returned. -/
structure DivergenceReport.Evidenced (report : DivergenceReport) : Prop where
  diagnostics : (∃ d, NativeDiverged base segment identity calls d ∧ report.Carries d) ∨
    (¬∃ d, NativeDiverged base segment identity calls d) ∧ report.CarriesNone
  diffPageIdx : report.diffPageIdx.isSome ↔
    (∃ d, NativeDiverged base segment identity calls d) ∨
      FellBackDiverged base segment identity calls report
  runFaults : report.runFaults ≠ [] → ∃ fault,
    HvCall.runToIcount base segment segment.header.endIcount.toNat (.err fault) ∈ calls ∧
      report.runFaults =
        [{ icount := segment.header.endIcount.toNat, kind := "HV_FAULT", detail := fault.display }]

end Evidence

section Exit

variable {σ : Type} [HypervisorReplay σ] {base : SnapshotRef} {segment : DhilogSegment}
  {expected : StateHash} {identity : BisectIdentity} {report : DivergenceReport}
  {calls last : List HvCall} {outcomes : List SegmentOutcome}

theorem nativeCall_notMem (outcome : SegmentOutcome) :
    nativeCall base segment identity outcome ∉
      outcomes.map (phase1Call base segment identity) := by
  intro hmem
  obtain ⟨o, -, ho⟩ := List.mem_map.mp hmem
  simp [phase1Call, nativeCall] at ho

theorem nativeCall_mem {outcome : SegmentOutcome} :
    nativeCall base segment identity outcome ∈
        outcomes.map (phase1Call base segment identity) ++ last ↔
      nativeCall base segment identity outcome ∈ last := by
  rw [List.mem_append]
  exact or_iff_right (nativeCall_notMem outcome)

theorem phase1Call_mem {outcome : SegmentOutcome} :
    phase1Call base segment identity outcome ∈ outcomes.map (phase1Call base segment identity) ↔
      outcome ∈ outcomes := by
  rw [List.mem_map]
  simp [phase1Call]

theorem isSome_findSome?_divergence :
    (outcomes.findSome? SegmentOutcome.divergence).isSome ↔ ∃ d, .diverged d ∈ outcomes := by
  rw [List.findSome?_isSome_iff]
  constructor
  · rintro ⟨o, ho, hsome⟩
    cases o with
    | verified => cases hsome
    | diverged d => exact ⟨d, ho⟩
  · rintro ⟨d, hd⟩
    exact ⟨_, hd, rfl⟩

/-- No call of the last stop is a native bisection or a flake run. -/
theorem EndProbe.other {runFaults : List RunFaultJson} (h : EndProbe base segment runFaults last) :
    (∀ outcome, nativeCall base segment identity outcome ∉ last) ∧
      ∀ outcome, phase1Call base segment identity outcome ∉ last := by
  cases h with
  | spent => simp
  | stopped => simp [nativeCall, phase1Call]
  | faulted => simp [nativeCall, phase1Call]

theorem evidenced_of_exit (h : BisectExit σ base segment expected identity report calls) :
    report.Evidenced base segment identity calls := by
  cases h with
  | disagree returned narrowest =>
      refine ⟨.inr ⟨?_, rfl, rfl, rfl, rfl⟩, ?_, ?_⟩
      · rintro ⟨d, hd⟩
        exact nativeCall_notMem _ hd
      · refine iff_of_false (by simp [makeReport]) ?_
        rintro (⟨d, hd⟩ | ⟨hclass, -⟩)
        · exact nativeCall_notMem _ hd
        · cases hclass
      · exact fun hne => absurd rfl hne
  | @native outcomes d used exhausted agree returned =>
      have hnative : NativeDiverged base segment identity
          (outcomes.map (phase1Call base segment identity) ++
            [nativeCall base segment identity (.diverged d)]) d :=
        nativeCall_mem.mpr (List.mem_singleton_self _)
      refine ⟨.inl ⟨d, hnative, rfl, rfl, rfl, rfl, rfl⟩, ?_, ?_⟩
      · exact iff_of_true rfl (.inl ⟨d, hnative⟩)
      · exact fun hne => absurd rfl hne
  | @notReproduced outcomes endStateHash epochsOk used exhausted agree =>
      have hnot : ¬∃ d, NativeDiverged base segment identity
          (outcomes.map (phase1Call base segment identity) ++
            [nativeCall base segment identity (.verified endStateHash epochsOk)]) d := by
        rintro ⟨d, hd⟩
        have hmem := nativeCall_mem.mp hd
        simp [nativeCall] at hmem
      refine ⟨.inr ⟨hnot, rfl, rfl, rfl, rfl⟩, ?_, ?_⟩
      · refine iff_of_false (by simp [makeReport]) ?_
        rintro (hd | ⟨-, hnone, -⟩)
        · exact hnot hd
        · exact hnone _ (nativeCall_mem.mpr (List.mem_singleton_self _))
      · exact fun hne => absurd rfl hne
  | @fallback outcomes actual used exhausted runFaults last agree probe =>
      obtain ⟨hnative, hphase1⟩ := probe.other
      have hnone : ∀ outcome, nativeCall base segment identity outcome ∉
          outcomes.map (phase1Call base segment identity) ++ last :=
        fun outcome hmem => hnative outcome (nativeCall_mem.mp hmem)
      have hdiverged : ∀ d, phase1Call base segment identity (.diverged d) ∈
          outcomes.map (phase1Call base segment identity) ++ last ↔ .diverged d ∈ outcomes := by
        intro d
        rw [List.mem_append, or_iff_left (hphase1 _), phase1Call_mem]
      refine ⟨.inr ⟨fun h => hnone _ h.choose_spec, rfl, rfl, rfl, rfl⟩, ?_, ?_⟩
      · rw [Option.isSome_map, isSome_findSome?_divergence]
        simp only [← hdiverged]
        constructor
        · exact fun h => .inr ⟨rfl, hnone, h⟩
        · rintro (⟨d, hd⟩ | ⟨-, -, h⟩)
          · exact absurd hd (hnone _)
          · exact h
      · intro hne
        cases probe with
        | spent => exact absurd rfl hne
        | stopped => exact absurd rfl hne
        | @faulted fault =>
            exact ⟨fault, List.mem_append_right _ (List.mem_singleton_self _), rfl⟩

/-! ### Where the divergence is -/

/-- Where a hypervisor reports divergences: inside the segment, at registers
that have names. -/
def DivergesInside (σ : Type) [HypervisorReplay σ] (base : SnapshotRef)
    (segment : DhilogSegment) : Prop :=
  ∀ d, Returns σ base segment (.diverged d) → d.icountLo ≤ d.icountHi ∧
    d.icountHi ≤ segment.header.endIcount.toNat ∧ ∀ reg ∈ d.regDiff, reg.name ≠ ""

theorem mem_of_minWindow : ∀ {windows : List (Nat × Nat)} {window : Nat × Nat},
    minWindow windows = .ok (some window) → window ∈ windows
  | [], _, h => by cases h
  | (lo, hi) :: rest, window, h => by
      obtain ⟨width, -, h⟩ := bind_eq_ok.mp h
      obtain ⟨found, hfound, h⟩ := bind_eq_ok.mp h
      cases found with
      | none =>
          obtain rfl := Option.some.inj (Outcome.ok.inj h)
          exact List.mem_cons_self ..
      | some w =>
          simp only at h
          split at h
          · obtain rfl := Option.some.inj (Outcome.ok.inj h)
            exact List.mem_cons_of_mem _ (mem_of_minWindow hfound)
          · obtain rfl := Option.some.inj (Outcome.ok.inj h)
            exact List.mem_cons_self ..

section Inside

variable (hinside : DivergesInside σ base segment)

include hinside

theorem located_of_exit (h : BisectExit σ base segment expected identity report calls) :
    report.Located segment.header.endIcount.toNat := by
  cases h with
  | @disagree outcomes window actual used exhausted returned narrowest =>
      cases window with
      | none => exact located_makeReport (Nat.zero_le _) (le_refl _)
      | some window =>
          obtain ⟨o, ho, hwindow⟩ := List.mem_filterMap.mp (mem_of_minWindow narrowest)
          cases o with
          | verified => cases hwindow
          | diverged d =>
              obtain rfl := Option.some.inj hwindow
              obtain ⟨hle, hend, -⟩ := hinside d (returned _ ho)
              exact located_makeReport hle hend
  | @native outcomes d used exhausted agree returned =>
      obtain ⟨hle, hend, -⟩ := hinside d returned
      exact located_makeReport hle hend
  | notReproduced agree => exact located_makeReport (Nat.zero_le _) (le_refl _)
  | fallback agree probe =>
      exact located_with_diffPageIdx (located_makeReport (Nat.zero_le _) (le_refl _))

theorem conforms_of_exit (hidentity : identity.Conforms)
    (h : BisectExit σ base segment expected identity report calls) : report.Conforms := by
  have hnofaults : ∀ fault ∈ ([] : List RunFaultJson), fault.kind ≠ "" := by simp
  have hlocated := located_of_exit hinside h
  cases h with
  | disagree => exact conforms_makeReport hidentity (by simp) hnofaults hlocated
  | @native outcomes d used exhausted agree returned =>
      refine conforms_makeReport hidentity ?_ hnofaults hlocated
      rintro _ ⟨⟩
      exact (hinside d returned).2.2
  | notReproduced => exact conforms_makeReport hidentity (by simp) hnofaults hlocated
  | @fallback outcomes actual used exhausted runFaults last agree probe =>
      have hfaults : ∀ fault ∈ runFaults, fault.kind ≠ "" := by
        cases probe with
        | spent => exact hnofaults
        | stopped => exact hnofaults
        | faulted => simp
      exact conforms_with_diffPageIdx (conforms_makeReport hidentity (by simp) hfaults
        (located_makeReport (Nat.zero_le _) (le_refl segment.header.endIcount.toNat))) rfl

end Inside

end Exit

/-- Whatever the hypervisor, as long as the divergences it reports are inside
the segment: a report of a bisection has one offset there, shows what the calls
returned and nothing else, and its text denotes a document that the schema
accepts. -/
theorem bisect_report_wellFormed {σ : Type} [HypervisorReplay σ] {base : SnapshotRef}
    {segment : DhilogSegment} {expected : StateHash} {identity : BisectIdentity}
    {opts : BisectOptions} {hv hv' : σ} {report : DivergenceReport}
    (hinside : DivergesInside σ base segment) (hidentity : identity.Conforms)
    (h : bisect base segment expected identity opts hv = (.ok report, hv')) :
    ∃ calls, bisect base segment expected identity opts (⟨hv, []⟩ : Logged σ) =
        (.ok report, ⟨hv', calls⟩) ∧
      report.Located segment.header.endIcount.toNat ∧
      report.Evidenced base segment identity calls ∧
      (∀ print, Prints print → JsonText report.toValue (report.toJson print)) ∧
      divergenceReportV2.Accepts report.toValue := by
  obtain ⟨calls, hbisect, hexit⟩ := bisect_exit h
  exact ⟨calls, hbisect, located_of_exit hinside hexit, evidenced_of_exit hexit,
    fun _ hprints => jsonText_toJson hprints report,
    accepts_toValue (conforms_of_exit hinside hidentity hexit)⟩

/-- A hypervisor that finds every replay to diverge at once, in one register. -/
structure DivergesAtOnce where

def atOnce : Divergence :=
  { icountLo := 0
    icountHi := 0
    ripExpected := 0x1000
    ripActual := 0x1010
    regDiff := [{ name := "rax", expected := 1, actual := 2 }]
    diffPageIdx := [0, 1]
    suspectedCause := "at once"
    endStateHash := Bytes32.fill 8 }

instance : HypervisorReplay DivergesAtOnce where
  verifySegment _ _ _ s := (.ok (.diverged atOnce), ⟨s.hv, s.budget.tryConsume.2, s.events⟩)
  runToIcount _ _ _ s := (.err .noBudget, s)

theorem divergesInside_atOnce (base : SnapshotRef) (segment : DhilogSegment) :
    DivergesInside DivergesAtOnce base segment := by
  rintro d ⟨opts, s, s', h⟩
  obtain rfl := SegmentOutcome.diverged.inj (Outcome.ok.inj (Prod.mk.inj h).1)
  exact ⟨le_refl _, Nat.zero_le _, by simp [atOnce]⟩

theorem conforms_bareIdentity : bareIdentity.Conforms where
  jobId := by
    refine accepts_pattern ⟨bareIdentity.jobId, rfl, ?_, by decide, by decide⟩
    simp [bareIdentity, Pattern.InClass, ReportSchema.ulidPattern]
  sourceJobId := by
    refine accepts_pattern ⟨bareIdentity.sourceJobId, rfl, ?_, by decide, by decide⟩
    simp [bareIdentity, Pattern.InClass, ReportSchema.ulidPattern]
  experimentId := by decide
  hypervisorVersion := by decide
  segmentIndex := by decide

/-- Four flake runs and the native one, whose diagnostics the report carries. -/
theorem bisect_report_wellFormed_atOnce :
    ∃ report hv' calls, bisect (Bytes32.fill 1) hashedSegment (Bytes32.fill 7) bareIdentity {}
        (⟨⟨⟩, []⟩ : Logged DivergesAtOnce) = (.ok report, ⟨hv', calls⟩) ∧
      calls.length = 5 ∧ report.ripExpected = some (hexU64 0x1000) ∧
      report.diffPageIdx = some [0, 1] ∧ report.suspectedCause = some "at once" ∧
      report.Located hashedSegment.header.endIcount.toNat ∧
      report.Evidenced (Bytes32.fill 1) hashedSegment bareIdentity calls ∧
      (∀ print, Prints print → JsonText report.toValue (report.toJson print)) ∧
      divergenceReportV2.Accepts report.toValue := by
  obtain ⟨report, hv', hbisect, hrip, hpages, hcause⟩ : ∃ report hv', bisect (Bytes32.fill 1)
      hashedSegment (Bytes32.fill 7) bareIdentity {} (⟨⟩ : DivergesAtOnce) = (.ok report, hv') ∧
      report.ripExpected = some (hexU64 0x1000) ∧ report.diffPageIdx = some [0, 1] ∧
      report.suspectedCause = some "at once" := ⟨_, _, rfl, rfl, rfl, rfl⟩
  obtain ⟨calls, hlogged, hreport⟩ := bisect_report_wellFormed (divergesInside_atOnce _ _)
    conforms_bareIdentity hbisect
  have hcalls : (bisect (Bytes32.fill 1) hashedSegment (Bytes32.fill 7) bareIdentity {}
      (⟨⟨⟩, []⟩ : Logged DivergesAtOnce)).2.calls.length = 5 := rfl
  rw [hlogged] at hcalls
  exact ⟨report, hv', calls, hlogged, hcalls, hrip, hpages, hcause, hreport⟩

end ReplayRenderer
