import ReplayRenderer.Lib.JsonUnique
import ReplayRenderer.Verify.Bisect
import ReplayRenderer.Verify.ReportJson

/-!
What the text of a report says. It denotes the report's document and no other,
whatever prints it; and the document, with its members in any order, is that of one
report.
-/

namespace ReplayRenderer

open Lib

/-! ### The parts -/

theorem natValue_injective : Function.Injective natValue := fun m n h => by
  simpa [natValue] using h

theorem str_injective : Function.Injective JsonValue.str := fun _ _ h => JsonValue.str.inj h

theorem arr_map_injective {α : Type} {f : α → JsonValue} (hf : Function.Injective f) :
    Function.Injective fun l : List α => JsonValue.arr (l.map f) := fun _ _ h =>
  hf.list_map (JsonValue.arr.inj h)

theorem natValue_u32 : Function.Injective fun n : UInt32 => natValue n.toNat := fun _ _ h =>
  UInt32.toNat_inj.mp (natValue_injective h)

theorem natValue_u64 : Function.Injective fun n : UInt64 => natValue n.toNat := fun _ _ h =>
  UInt64.toNat_inj.mp (natValue_injective h)

theorem Classification.toValue_injective : Function.Injective Classification.toValue := by
  intro c c' h
  cases c <;> cases c' <;> simp [Classification.toValue] at h ⊢

theorem OffsetKind.toValue_injective : Function.Injective OffsetKind.toValue := by
  intro k k' h
  cases k <;> cases k' <;> simp [OffsetKind.toValue] at h ⊢

theorem ReportEdge.toValue_injective : Function.Injective ReportEdge.toValue := by
  rintro ⟨parent, child⟩ ⟨parent', child'⟩ h
  simp [ReportEdge.toValue, JsonValue.record] at h
  rw [natValue_u64 h.1, natValue_u64 h.2]

theorem IcountWindow.toValue_injective : Function.Injective IcountWindow.toValue := by
  rintro ⟨from_, to_⟩ ⟨from', to'⟩ h
  simp [IcountWindow.toValue, JsonValue.record] at h
  rw [natValue_injective h.1, natValue_injective h.2]

theorem RegDiffJson.toValue_injective : Function.Injective RegDiffJson.toValue := by
  rintro ⟨name, expected, actual⟩ ⟨name', expected', actual'⟩ h
  simpa [RegDiffJson.toValue, JsonValue.record] using h

theorem RunFaultJson.toValue_injective : Function.Injective RunFaultJson.toValue := by
  rintro ⟨icount, kind, detail⟩ ⟨icount', kind', detail'⟩ h
  simp [RunFaultJson.toValue, JsonValue.record] at h
  rw [natValue_injective h.1, h.2.1, h.2.2]

theorem Versions.toValue_injective : Function.Injective Versions.toValue := by
  rintro ⟨replayRenderer, hypervisor, dhilog⟩ ⟨replayRenderer', hypervisor', dhilog'⟩ h
  simpa [Versions.toValue, JsonValue.record] using h

theorem DilogArtifact.toValue_injective : Function.Injective DilogArtifact.toValue := by
  rintro ⟨registryId, blake3⟩ ⟨registryId', blake3'⟩ h
  simpa [DilogArtifact.toValue, JsonValue.record] using h

/-! ### The report -/

/-- A report is in its fields. -/
theorem fields_injective : Function.Injective DivergenceReport.fields := by
  intro report report' h
  simp only [DivergenceReport.fields, List.cons.injEq, Prod.mk.injEq, Option.some.injEq, true_and,
    and_true, JsonValue.str.injEq, JsonValue.bool.injEq] at h
  obtain ⟨version, jobId, sourceJobId, experimentId, nodeId, badChildNodeId, edge, segmentIndex,
    classification, offsetKind, icount, icountWindow, ripExpected, ripActual, regDiff,
    diffPageIdx, suspectedCause, expectedHash, actualHash, runsUsed, budgetExhausted, runFaults,
    versions, dilogArtifact, reproCmd⟩ := h
  replace version := natValue_u32 version
  replace nodeId := natValue_u64 nodeId
  replace badChildNodeId := natValue_u64 badChildNodeId
  replace edge := ReportEdge.toValue_injective edge
  replace segmentIndex := natValue_u32 segmentIndex
  replace classification := Classification.toValue_injective classification
  replace offsetKind := OffsetKind.toValue_injective offsetKind
  replace icount := Option.map_injective natValue_injective icount
  replace icountWindow := Option.map_injective IcountWindow.toValue_injective icountWindow
  replace ripExpected := Option.map_injective str_injective ripExpected
  replace ripActual := Option.map_injective str_injective ripActual
  replace regDiff := Option.map_injective (arr_map_injective RegDiffJson.toValue_injective) regDiff
  replace diffPageIdx := Option.map_injective (arr_map_injective natValue_injective) diffPageIdx
  replace suspectedCause := Option.map_injective str_injective suspectedCause
  replace runsUsed := natValue_injective runsUsed
  replace runFaults := arr_map_injective RunFaultJson.toValue_injective runFaults
  replace versions := Versions.toValue_injective versions
  replace dilogArtifact := DilogArtifact.toValue_injective dilogArtifact
  cases report
  cases report'
  simp only at *
  subst_vars
  rfl

def DivergenceReport.members (report : DivergenceReport) : List (String × JsonValue) :=
  report.fields.filterMap fun f => f.2.map fun v => (f.1, v)

theorem report_eq_of_perm {report report' : DivergenceReport}
    (h : report'.members.Perm report.members) : report' = report := by
  have hkeys : report'.fields.map Prod.fst = report.fields.map Prod.fst := rfl
  have hnames : (report'.fields.map Prod.fst).Nodup := by simp [DivergenceReport.fields]
  exact fields_injective (record_inj hkeys hnames h)

/-- The text of a report, whatever prints it, denotes the report's document and
no other. No other report has a document of the same members, in any order, so a
text is that of one report. -/
theorem report_of_text (report : DivergenceReport) :
    (∀ print, Prints print → ∀ v, JsonText v (report.toJson print) ↔ v = report.toValue) ∧
      (∀ report' : DivergenceReport, report'.members.Perm report.members → report' = report) ∧
      ∀ (report' : DivergenceReport) (text : String),
        JsonText report.toValue text → JsonText report'.toValue text → report' = report := by
  refine ⟨fun print hprints v => ?_, fun report' => report_eq_of_perm, ?_⟩
  · have htext := jsonText_toJson hprints report
    constructor
    · exact fun hv => jsonText_unique hv htext
    · rintro rfl
      exact htext
  · intro report' text htext htext'
    have hvalue : report'.toValue = report.toValue := jsonText_unique htext' htext
    have hmembers : report'.members = report.members := JsonValue.obj.inj hvalue
    exact report_eq_of_perm (hmembers ▸ List.Perm.refl _)

def windowReport : DivergenceReport :=
  { makeReport bareIdentity .recordedDivergence (3, 9) none (Bytes32.fill 1) (Bytes32.fill 2) 4 true
      [{ icount := 5, kind := "\"quoted\"", detail := "two\nlines" }] with
    diffPageIdx := some [0, 1] }

/-- One field a line, and the members the other way round. -/
theorem report_of_text_window :
    (∀ v, JsonText v (windowReport.toJson (JsonValue.pretty 0)) ↔ v = windowReport.toValue) ∧
      (∀ report : DivergenceReport,
        report.members.Perm windowReport.members.reverse → report = windowReport) ∧
      ∀ report : DivergenceReport, report.toJson (JsonValue.pretty 0) =
        windowReport.toJson (JsonValue.pretty 0) → report = windowReport := by
  obtain ⟨hdenotes, hmembers, htexts⟩ := report_of_text windowReport
  have hprints : Prints (JsonValue.pretty 0) := prints_pretty 0
  refine ⟨hdenotes _ hprints, fun report hperm => ?_, fun report hsame => ?_⟩
  · exact hmembers report (hperm.trans (List.reverse_perm _))
  · exact htexts report _ (jsonText_toJson hprints windowReport)
      (hsame ▸ jsonText_toJson hprints report)

end ReplayRenderer
