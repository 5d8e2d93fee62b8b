import ReplayRenderer.Lib.Schema
import ReplayRenderer.Verify.Report

/-!
The report as JSON, and the schema it is checked against. Fields that are
absent are left out of the document; the others come in the order of the
schema's properties. What the schema asks for beyond their types is
`DivergenceReport.Conforms`.
-/

namespace ReplayRenderer

open Lib Lib.Outcome

/-! ### The document -/

def natValue (n : Nat) : JsonValue := .num n

def Classification.toValue : Classification → JsonValue
  | .replayNondeterministic => .str "REPLAY_NONDETERMINISTIC"
  | .recordedDivergence => .str "RECORDED_DIVERGENCE"

def OffsetKind.toValue : OffsetKind → JsonValue
  | .exactIcount => .str "EXACT_ICOUNT"
  | .icountWindow => .str "ICOUNT_WINDOW"

def ReportEdge.toValue (edge : ReportEdge) : JsonValue :=
  .record
    [("parent", some (natValue edge.parent.toNat)),
      ("child", some (natValue edge.child.toNat))]

def IcountWindow.toValue (window : IcountWindow) : JsonValue :=
  .record
    [("from", some (natValue window.from_)),
      ("to", some (natValue window.to_))]

def RegDiffJson.toValue (reg : RegDiffJson) : JsonValue :=
  .record
    [("name", some (.str reg.name)),
      ("expected", some (.str reg.expected)),
      ("actual", some (.str reg.actual))]

def RunFaultJson.toValue (fault : RunFaultJson) : JsonValue :=
  .record
    [("icount", some (natValue fault.icount)),
      ("kind", some (.str fault.kind)),
      ("detail", some (.str fault.detail))]

def Versions.toValue (versions : Versions) : JsonValue :=
  .record
    [("replay_renderer", some (.str versions.replayRenderer)),
      ("hypervisor", some (.str versions.hypervisor)),
      ("dhilog", some (.str versions.dhilog))]

def DilogArtifact.toValue (artifact : DilogArtifact) : JsonValue :=
  .record
    [("registry_id", some (.str artifact.registryId)),
      ("blake3", some (.str artifact.blake3))]

/-- In declaration order. -/
def DivergenceReport.fields (report : DivergenceReport) : List (String × Option JsonValue) :=
  [("version", some (natValue report.version.toNat)),
    ("job_id", some (.str report.jobId)),
    ("source_job_id", some (.str report.sourceJobId)),
    ("experiment_id", some (.str report.experimentId)),
    ("node_id", some (natValue report.nodeId.toNat)),
    ("bad_child_node_id", some (natValue report.badChildNodeId.toNat)),
    ("edge", some report.edge.toValue),
    ("segment_index", some (natValue report.segmentIndex.toNat)),
    ("classification", some report.classification.toValue),
    ("offset_kind", some report.offsetKind.toValue),
    ("icount", report.icount.map natValue),
    ("icount_window", report.icountWindow.map IcountWindow.toValue),
    ("rip_expected", report.ripExpected.map .str),
    ("rip_actual", report.ripActual.map .str),
    ("reg_diff", report.regDiff.map fun regs => .arr (regs.map RegDiffJson.toValue)),
    ("diff_page_idx", report.diffPageIdx.map fun pages => .arr (pages.map natValue)),
    ("suspected_cause", report.suspectedCause.map .str),
    ("expected_hash", some (.str report.expectedHash)),
    ("actual_hash", some (.str report.actualHash)),
    ("runs_used", some (natValue report.runsUsed)),
    ("budget_exhausted", some (.bool report.budgetExhausted)),
    ("run_faults", some (.arr (report.runFaults.map RunFaultJson.toValue))),
    ("versions", some report.versions.toValue),
    ("dilog_artifact", some report.dilogArtifact.toValue),
    ("repro_cmd", some (.str report.reproCmd))]

def DivergenceReport.toValue (report : DivergenceReport) : JsonValue := .record report.fields

/-- What `serde_json` prints, and a newline after it. -/
def DivergenceReport.toJson (toStringPretty : JsonValue → String) (report : DivergenceReport) :
    String :=
  toStringPretty report.toValue ++ "\n"

theorem jsonText_toJson {toStringPretty : JsonValue → String} (hprints : Prints toStringPretty)
    (report : DivergenceReport) : JsonText report.toValue (report.toJson toStringPretty) :=
  (hprints report.toValue).append blank_newline

/-! ### The schema -/

namespace ReportSchema

/-- `^0x[0-9a-f]+$`. -/
def hexPattern : Pattern :=
  { literal := "0x", ranges := [('0', '9'), ('a', 'f')], least := 1, most := none }

/-- `^b3:[0-9a-f]{64}$`. -/
def b3Pattern : Pattern :=
  { literal := "b3:", ranges := [('0', '9'), ('a', 'f')], least := 64, most := some 64 }

/-- `^[0-9A-HJKMNP-TV-Z]{26}$`. -/
def ulidPattern : Pattern :=
  { literal := ""
    ranges := [('0', '9'), ('A', 'H'), ('J', 'J'), ('K', 'K'), ('M', 'M'), ('N', 'N'), ('P', 'T'),
      ('V', 'Z')]
    least := 26
    most := some 26 }

def u64 : Schema := .allOf [.type .integer, .minimum 0]
def hex : Schema := .allOf [.type .string, .pattern hexPattern]
def b3hash : Schema := .allOf [.type .string, .pattern b3Pattern]
def ulid : Schema := .allOf [.type .string, .pattern ulidPattern]

def nonEmpty : Schema := .allOf [.type .string, .minLength 1]

/-- A closed object, with the properties it must have among those it may. -/
def object (required : List String) (props : List (String × Schema)) : Schema :=
  .allOf [.type .object, .properties props false, .required required]

def arrayOf (s : Schema) : Schema := .allOf [.type .array, .items s]

def edge : Schema := object ["parent", "child"] [("parent", u64), ("child", u64)]

def icountWindow : Schema := object ["from", "to"] [("from", u64), ("to", u64)]

def regDiff : Schema :=
  object ["name", "expected", "actual"] [("name", nonEmpty), ("expected", hex), ("actual", hex)]

def runFault : Schema :=
  object ["icount", "kind", "detail"]
    [("icount", u64), ("kind", nonEmpty), ("detail", .type .string)]

def versions : Schema :=
  object ["replay_renderer", "hypervisor", "dhilog"]
    [("replay_renderer", nonEmpty), ("hypervisor", nonEmpty), ("dhilog", .const (.str "1.0"))]

def dilogArtifact : Schema :=
  object ["registry_id", "blake3"] [("registry_id", nonEmpty), ("blake3", b3hash)]

def required : List String :=
  ["version", "job_id", "source_job_id", "experiment_id", "node_id", "bad_child_node_id", "edge",
    "segment_index", "classification", "offset_kind", "expected_hash", "actual_hash", "runs_used",
    "budget_exhausted", "run_faults", "versions", "dilog_artifact", "repro_cmd"]

def properties : List (String × Schema) :=
  [("version", .const (natValue 2)),
    ("job_id", ulid),
    ("source_job_id", ulid),
    ("experiment_id", nonEmpty),
    ("node_id", u64),
    ("bad_child_node_id", u64),
    ("edge", edge),
    ("segment_index", .allOf [.type .integer, .minimum 1]),
    ("classification", .enum [.str "REPLAY_NONDETERMINISTIC", .str "RECORDED_DIVERGENCE"]),
    ("offset_kind", .enum [.str "EXACT_ICOUNT", .str "ICOUNT_WINDOW"]),
    ("icount", u64),
    ("icount_window", icountWindow),
    ("rip_expected", hex),
    ("rip_actual", hex),
    ("reg_diff", arrayOf regDiff),
    ("diff_page_idx", arrayOf u64),
    ("suspected_cause", .type .string),
    ("expected_hash", b3hash),
    ("actual_hash", b3hash),
    ("runs_used", u64),
    ("budget_exhausted", .type .boolean),
    ("run_faults", arrayOf runFault),
    ("versions", versions),
    ("dilog_artifact", dilogArtifact),
    ("repro_cmd", nonEmpty)]

def offsetIs (kind : String) : Schema := .properties [("offset_kind", .const (.str kind))] true

def conditionals : List Schema :=
  [.ifThen (offsetIs "EXACT_ICOUNT")
      (.allOf [.required ["icount"], .not (.required ["icount_window"])]),
    .ifThen (offsetIs "ICOUNT_WINDOW")
      (.allOf [.required ["icount_window"], .not (.required ["icount"])]),
    .ifThen (.required ["rip_expected"])
      (.required ["rip_actual", "reg_diff", "diff_page_idx", "suspected_cause"])]

end ReportSchema

/-- `divergence-report.v2.schema.json`. -/
def divergenceReportV2 : Schema :=
  .allOf [ReportSchema.object ReportSchema.required ReportSchema.properties,
    .allOf ReportSchema.conditionals]

/-! ### What the parts are accepted by -/

section Parts

open ReportSchema

theorem accepts_u64 (n : Nat) : u64.Accepts (natValue n) := by
  rw [u64, accepts_pair]
  simp [Schema.Accepts, natValue, JsonType.Has]

theorem accepts_nonEmpty {s : String} (h : s ≠ "") : nonEmpty.Accepts (.str s) := by
  have hpos : 1 ≤ s.length := Nat.pos_of_ne_zero (mt String.length_eq_zero_iff.mp h)
  rw [nonEmpty, accepts_pair]
  simp [Schema.Accepts, JsonType.Has, hpos]

theorem accepts_pattern {p : Pattern} {s : String} (h : p.Matches s) :
    (Schema.allOf [.type .string, .pattern p]).Accepts (.str s) := by
  rw [accepts_pair]
  simp [Schema.Accepts, JsonType.Has, h]

theorem accepts_object {required : List String} {props : List (String × Schema)}
    {fields : List (String × Option JsonValue)} (hnodup : (props.map Prod.fst).Nodup)
    (h : List.Forall₂ Describes props fields)
    (hrequired : ∀ name ∈ required, ∃ v, (name, some v) ∈ fields) :
    (object required props).Accepts (.record fields) := by
  rw [object, accepts_allOf]
  intro s hs
  simp only [List.mem_cons, List.not_mem_nil, or_false] at hs
  rcases hs with rfl | rfl | rfl
  · simp [Schema.Accepts, JsonValue.record, JsonType.Has]
  · exact accepts_record hnodup h
  · exact accepts_required_record.mpr hrequired

theorem accepts_arrayOf {α : Type} {s : Schema} {f : α → JsonValue} {l : List α}
    (h : ∀ a ∈ l, s.Accepts (f a)) : (arrayOf s).Accepts (.arr (l.map f)) := by
  rw [arrayOf, accepts_pair]
  simpa [Schema.Accepts, JsonType.Has] using h

theorem inClass_of_mem_hexDigits {w n : Nat} {c : Char} (h : c ∈ (hexDigits w n).toList) :
    ∃ r ∈ [('0', '9'), ('a', 'f')], r.1 ≤ c ∧ c ≤ r.2 := by
  rcases mem_hexDigits h with h | h
  · exact ⟨('0', '9'), by simp, h⟩
  · exact ⟨('a', 'f'), by simp, h⟩

theorem accepts_hexU64 (v : UInt64) : hex.Accepts (.str (hexU64 v)) := by
  refine accepts_pattern ⟨hexDigits 1 v.toNat, rfl, ?_, le_length_hexDigits, by simp [hexPattern]⟩
  intro c hc
  exact inClass_of_mem_hexDigits hc

theorem hexBytes_eq (hash : Bytes32) : (hexBytes hash).toList =
    hash.bytes.flatMap fun b => (hexDigits 2 b.toNat).toList := by
  rw [hexBytes, String.toList_join, List.flatMap_map]

theorem length_hexBytes (hash : Bytes32) : (hexBytes hash).length = 64 := by
  have hbyte : ∀ b : UInt8, (hexDigits 2 b.toNat).toList.length = 2 := by
    intro b
    rw [String.length_toList]
    exact length_hexDigits (by decide) b.toNat_lt
  rw [← String.length_toList, hexBytes_eq, List.length_flatMap]
  simp [hbyte]

theorem accepts_b3Hex (hash : Bytes32) : b3hash.Accepts (.str (b3Hex hash)) := by
  refine accepts_pattern ⟨hexBytes hash, rfl, ?_, (length_hexBytes hash).ge, ?_⟩
  · intro c hc
    rw [hexBytes_eq] at hc
    obtain ⟨b, -, hc⟩ := List.mem_flatMap.mp hc
    exact inClass_of_mem_hexDigits hc
  · rintro most ⟨⟩
    exact (length_hexBytes hash).le

theorem accepts_edge (e : ReportEdge) : edge.Accepts e.toValue := by
  refine accepts_object (by simp) ?_ (by simp)
  exact .cons (describes_some (accepts_u64 _)) (.cons (describes_some (accepts_u64 _)) .nil)

theorem accepts_icountWindow (window : IcountWindow) : icountWindow.Accepts window.toValue := by
  refine accepts_object (by simp) ?_ (by simp)
  exact .cons (describes_some (accepts_u64 _)) (.cons (describes_some (accepts_u64 _)) .nil)

theorem accepts_string (s : String) : (Schema.type .string).Accepts (.str s) := by
  simp [Schema.Accepts, JsonType.Has]

theorem accepts_regDiff {reg : RegDiffJson} (hname : reg.name ≠ "")
    (hexpected : hex.Accepts (.str reg.expected)) (hactual : hex.Accepts (.str reg.actual)) :
    regDiff.Accepts reg.toValue := by
  refine accepts_object (by simp) ?_ (by simp)
  exact .cons (describes_some (accepts_nonEmpty hname)) (.cons (describes_some hexpected)
    (.cons (describes_some hactual) .nil))

theorem accepts_runFault {fault : RunFaultJson} (hkind : fault.kind ≠ "") :
    runFault.Accepts fault.toValue := by
  refine accepts_object (by simp) ?_ (by simp)
  exact .cons (describes_some (accepts_u64 _)) (.cons (describes_some (accepts_nonEmpty hkind))
    (.cons (describes_some (accepts_string _)) .nil))

end Parts

/-! ### The report -/

/-- Where a report says the divergence is, in a segment that ends at `end_`:
at one icount, and then it blames the recording, or in a window. -/
inductive DivergenceReport.Located (end_ : Nat) (report : DivergenceReport) : Prop
  | exact {t : Nat} (offsetKind_eq : report.offsetKind = .exactIcount)
      (classification_eq : report.classification = .recordedDivergence)
      (icount_eq : report.icount = some t) (icountWindow_eq : report.icountWindow = none)
      (le_end : t ≤ end_) : report.Located end_
  | window {window : IcountWindow} (offsetKind_eq : report.offsetKind = .icountWindow)
      (icount_eq : report.icount = none) (icountWindow_eq : report.icountWindow = some window)
      (ordered : window.from_ ≤ window.to_) (le_end : window.to_ ≤ end_) : report.Located end_

section Conforms

open ReportSchema

/-- What a report has to be for its document to be accepted, where its types do
not see to it. -/
structure DivergenceReport.Conforms (report : DivergenceReport) : Prop where
  version : report.version = 2
  jobId : ulid.Accepts (.str report.jobId)
  sourceJobId : ulid.Accepts (.str report.sourceJobId)
  experimentId : report.experimentId ≠ ""
  segmentIndex : 1 ≤ report.segmentIndex.toNat
  located : ∃ end_, report.Located end_
  ripExpected : ∀ rip ∈ report.ripExpected, hex.Accepts (.str rip)
  ripActual : ∀ rip ∈ report.ripActual, hex.Accepts (.str rip)
  regDiff : ∀ regs ∈ report.regDiff, ∀ reg ∈ regs, reg.name ≠ "" ∧
    hex.Accepts (.str reg.expected) ∧ hex.Accepts (.str reg.actual)
  diagnosed : report.ripExpected.isSome → report.ripActual.isSome ∧ report.regDiff.isSome ∧
    report.diffPageIdx.isSome ∧ report.suspectedCause.isSome
  expectedHash : b3hash.Accepts (.str report.expectedHash)
  actualHash : b3hash.Accepts (.str report.actualHash)
  runFaults : ∀ fault ∈ report.runFaults, fault.kind ≠ ""
  replayRenderer : report.versions.replayRenderer ≠ ""
  hypervisor : report.versions.hypervisor ≠ ""
  dhilog : report.versions.dhilog = "1.0"
  registryId : report.dilogArtifact.registryId ≠ ""
  blake3 : b3hash.Accepts (.str report.dilogArtifact.blake3)
  reproCmd : report.reproCmd ≠ ""

variable {report : DivergenceReport}

theorem accepts_versions (h : report.Conforms) : versions.Accepts report.versions.toValue := by
  refine accepts_object (by simp) ?_ (by simp)
  exact .cons (describes_some (accepts_nonEmpty h.replayRenderer))
    (.cons (describes_some (accepts_nonEmpty h.hypervisor))
      (.cons (describes_some (by rw [Schema.Accepts, h.dhilog])) .nil))

theorem accepts_dilogArtifact (h : report.Conforms) :
    dilogArtifact.Accepts report.dilogArtifact.toValue := by
  refine accepts_object (by simp) ?_ (by simp)
  exact .cons (describes_some (accepts_nonEmpty h.registryId))
    (.cons (describes_some h.blake3) .nil)

theorem describes_fields (h : report.Conforms) :
    List.Forall₂ Describes properties report.fields := by
  refine .cons (describes_some (by rw [Schema.Accepts, h.version]; rfl)) ?_
  refine .cons (describes_some h.jobId) (.cons (describes_some h.sourceJobId) ?_)
  refine .cons (describes_some (accepts_nonEmpty h.experimentId)) ?_
  refine .cons (describes_some (accepts_u64 _)) (.cons (describes_some (accepts_u64 _)) ?_)
  refine .cons (describes_some (accepts_edge _)) (.cons (describes_some ?_) ?_)
  · rw [accepts_pair]
    simp [Schema.Accepts, JsonType.Has, natValue, h.segmentIndex]
  refine .cons (describes_some ?_) (.cons (describes_some ?_) ?_)
  · cases report.classification <;> simp [Schema.Accepts, Classification.toValue]
  · cases report.offsetKind <;> simp [Schema.Accepts, OffsetKind.toValue]
  refine .cons (describes_map fun t _ => accepts_u64 t) ?_
  refine .cons (describes_map fun window _ => accepts_icountWindow window) ?_
  refine .cons (describes_map h.ripExpected) (.cons (describes_map h.ripActual) ?_)
  refine .cons (describes_map fun regs hregs => ?_) ?_
  · refine accepts_arrayOf fun reg hreg => ?_
    obtain ⟨hname, hexpected, hactual⟩ := h.regDiff regs hregs reg hreg
    exact accepts_regDiff hname hexpected hactual
  refine .cons (describes_map fun pages _ => accepts_arrayOf fun page _ => accepts_u64 page) ?_
  refine .cons (describes_map fun cause _ => accepts_string cause) ?_
  refine .cons (describes_some h.expectedHash) (.cons (describes_some h.actualHash) ?_)
  refine .cons (describes_some (accepts_u64 _)) (.cons (describes_some ?_) ?_)
  · simp [Schema.Accepts, JsonType.Has]
  refine .cons (describes_some (accepts_arrayOf fun fault hfault => ?_)) ?_
  · exact accepts_runFault (h.runFaults fault hfault)
  refine .cons (describes_some (accepts_versions h))
    (.cons (describes_some (accepts_dilogArtifact h)) ?_)
  exact .cons (describes_some (accepts_nonEmpty h.reproCmd)) .nil

theorem required_fields (report : DivergenceReport) :
    ∀ name ∈ required, ∃ v, (name, some v) ∈ report.fields := by
  simp [required, DivergenceReport.fields]

theorem nodup_properties : (properties.map Prod.fst).Nodup := by
  simp [properties]

theorem accepts_offsetIs {kind : String} :
    (offsetIs kind).Accepts report.toValue ↔ report.offsetKind.toValue = .str kind := by
  rw [offsetIs, DivergenceReport.toValue, accepts_properties_record]
  simp [DivergenceReport.fields, Schema.Accepts]

theorem accepts_required {names : List String} :
    (Schema.required names).Accepts report.toValue ↔
      ∀ name ∈ names, ∃ v, (name, some v) ∈ report.fields := accepts_required_record

theorem accepts_conditionals {end_ : Nat} (hlocated : report.Located end_)
    (hdiagnosed : report.ripExpected.isSome → report.ripActual.isSome ∧ report.regDiff.isSome ∧
      report.diffPageIdx.isSome ∧ report.suspectedCause.isSome) :
    ∀ s ∈ conditionals, s.Accepts report.toValue := by
  intro s hs
  simp only [conditionals, List.mem_cons, List.not_mem_nil, or_false] at hs
  rcases hs with rfl | rfl | rfl
  · rw [accepts_ifThen, accepts_offsetIs, accepts_pair, accepts_not, accepts_required,
      accepts_required]
    intro hkind
    cases hlocated with
    | exact hoffset _ hicount hwindow _ => simp [DivergenceReport.fields, hicount, hwindow]
    | window hoffset => simp [hoffset, OffsetKind.toValue] at hkind
  · rw [accepts_ifThen, accepts_offsetIs, accepts_pair, accepts_not, accepts_required,
      accepts_required]
    intro hkind
    cases hlocated with
    | exact hoffset => simp [hoffset, OffsetKind.toValue] at hkind
    | window hoffset hicount hwindow => simp [DivergenceReport.fields, hicount, hwindow]
  · rw [accepts_ifThen, accepts_required, accepts_required]
    simpa [DivergenceReport.fields, Option.isSome_iff_exists] using hdiagnosed

/-- A report that conforms has a document that the schema accepts. -/
theorem accepts_toValue (h : report.Conforms) : divergenceReportV2.Accepts report.toValue := by
  rw [divergenceReportV2, accepts_pair, accepts_allOf]
  obtain ⟨end_, hlocated⟩ := h.located
  exact ⟨accepts_object nodup_properties (describes_fields h) (required_fields report),
    accepts_conditionals hlocated h.diagnosed⟩

end Conforms

end ReplayRenderer
