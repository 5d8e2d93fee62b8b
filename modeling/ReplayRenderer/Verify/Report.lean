import ReplayRenderer.Lib.Text
import ReplayRenderer.Verify.Hv

/-!
The divergence report. A localization is one icount or a window of them;
`makeReport` tells the two apart by whether the window is a point.
-/

namespace ReplayRenderer

open Lib Lib.Outcome

inductive Classification where
  | replayNondeterministic
  | recordedDivergence
  deriving DecidableEq, Repr

inductive OffsetKind where
  | exactIcount
  | icountWindow
  deriving DecidableEq, Repr

structure ReportEdge where
  parent : UInt64
  child : UInt64
  deriving DecidableEq

structure IcountWindow where
  from_ : Nat
  to_ : Nat
  deriving DecidableEq, Repr

structure RegDiffJson where
  name : String
  expected : String
  actual : String
  deriving DecidableEq

structure RunFaultJson where
  icount : Nat
  kind : String
  detail : String
  deriving DecidableEq

structure Versions where
  replayRenderer : String
  hypervisor : String
  dhilog : String
  deriving DecidableEq

structure DilogArtifact where
  registryId : String
  blake3 : String
  deriving DecidableEq

structure DivergenceReport where
  version : UInt32
  jobId : String
  sourceJobId : String
  experimentId : String
  nodeId : UInt64
  badChildNodeId : UInt64
  edge : ReportEdge
  /-- 1-based position on the path. -/
  segmentIndex : UInt32
  classification : Classification
  offsetKind : OffsetKind
  icount : Option Nat
  icountWindow : Option IcountWindow
  ripExpected : Option String
  ripActual : Option String
  regDiff : Option (List RegDiffJson)
  diffPageIdx : Option (List Nat)
  suspectedCause : Option String
  expectedHash : String
  actualHash : String
  runsUsed : Nat
  budgetExhausted : Bool
  runFaults : List RunFaultJson
  versions : Versions
  dilogArtifact : DilogArtifact
  reproCmd : String
  deriving DecidableEq

def hexBytes (hash : Bytes32) : String :=
  String.join (hash.bytes.map fun b => hexDigits 2 b.toNat)

def b3Hex (hash : Bytes32) : String := "b3:" ++ hexBytes hash

def hexU64 (v : UInt64) : String := "0x" ++ hexDigits 1 v.toNat

/-- The job-layer fields of a report. -/
structure BisectIdentity where
  jobId : String
  sourceJobId : String
  experimentId : String
  nodeId : UInt64
  badChildNodeId : UInt64
  edgeParent : UInt64
  /-- 1-based position on the path. -/
  segmentIndex : UInt32
  /-- The hash of the assembled container. -/
  dilogBlake3 : Bytes32
  hypervisorVersion : String
  deriving DecidableEq

def makeReport (identity : BisectIdentity) (classification : Classification)
    (window : Nat × Nat) (diagnostics : Option SegmentOutcome) (expected actual : StateHash)
    (runsUsed : Nat) (budgetExhausted : Bool) (runFaults : List RunFaultJson) :
    DivergenceReport :=
  let (lo, hi) := window
  let exact : Bool := lo == hi && classification == .recordedDivergence
  let registryId := "local:" ++ hexBytes identity.dilogBlake3
  -- the diagnostics of a native bisection are carried verbatim
  let divergence : Option Divergence :=
    match diagnostics with
    | some (.diverged d) => some d
    | _ => none
  { version := 2
    jobId := identity.jobId
    sourceJobId := identity.sourceJobId
    experimentId := identity.experimentId
    nodeId := identity.nodeId
    badChildNodeId := identity.badChildNodeId
    edge := { parent := identity.edgeParent, child := identity.badChildNodeId }
    segmentIndex := identity.segmentIndex
    classification
    offsetKind := if exact then .exactIcount else .icountWindow
    icount := if exact then some lo else none
    icountWindow := if exact then none else some { from_ := lo, to_ := hi }
    ripExpected := divergence.map fun d => hexU64 d.ripExpected
    ripActual := divergence.map fun d => hexU64 d.ripActual
    regDiff := divergence.map fun d => d.regDiff.map fun r =>
      { name := r.name, expected := hexU64 r.expected, actual := hexU64 r.actual }
    diffPageIdx := divergence.map Divergence.diffPageIdx
    suspectedCause := divergence.map Divergence.suspectedCause
    expectedHash := b3Hex expected
    actualHash := b3Hex actual
    runsUsed
    budgetExhausted
    runFaults
    versions :=
      { replayRenderer := "0.1.0"
        hypervisor := identity.hypervisorVersion
        dhilog := "1.0" }
    dilogArtifact := { registryId, blake3 := b3Hex identity.dilogBlake3 }
    reproCmd := "detctl replay verify --dilog " ++ registryId ++ " --segment "
      ++ toString identity.segmentIndex.toNat }

section MakeReport

variable {identity : BisectIdentity} {classification : Classification} {window : Nat × Nat}
  {diagnostics : Option SegmentOutcome} {expected actual : StateHash} {runsUsed : Nat}
  {budgetExhausted : Bool} {runFaults : List RunFaultJson}

@[simp] theorem classification_makeReport :
    (makeReport identity classification window diagnostics expected actual runsUsed
      budgetExhausted runFaults).classification = classification := rfl

@[simp] theorem budgetExhausted_makeReport :
    (makeReport identity classification window diagnostics expected actual runsUsed
      budgetExhausted runFaults).budgetExhausted = budgetExhausted := rfl

@[simp] theorem actualHash_makeReport :
    (makeReport identity classification window diagnostics expected actual runsUsed
      budgetExhausted runFaults).actualHash = b3Hex actual := rfl

def DivergenceReport.Covers (report : DivergenceReport) (icount : Nat) : Prop :=
  report.icount = some icount ∨
    ∃ window, report.icountWindow = some window ∧ window.from_ ≤ icount ∧ icount ≤ window.to_

/-- The pages of a report do not say where the divergence is. -/
theorem covers_with_diffPageIdx {report : DivergenceReport} {diffPageIdx : Option (List Nat)}
    {icount : Nat} : { report with diffPageIdx }.Covers icount ↔ report.Covers icount := Iff.rfl

/-- A report that blames the recording covers its window. -/
theorem covers_makeReport {lo hi icount : Nat} :
    (makeReport identity .recordedDivergence (lo, hi) diagnostics expected actual runsUsed
        budgetExhausted runFaults).Covers icount ↔ lo ≤ icount ∧ icount ≤ hi := by
  by_cases h : lo = hi
  · subst h
    simp [DivergenceReport.Covers, makeReport]
    omega
  · simp [DivergenceReport.Covers, makeReport, h]

/-- It gives one icount exactly when the window is a point. -/
theorem exact_makeReport {lo hi icount : Nat} :
    (makeReport identity .recordedDivergence (lo, hi) diagnostics expected actual runsUsed
          budgetExhausted runFaults).offsetKind = .exactIcount ∧
        (makeReport identity .recordedDivergence (lo, hi) diagnostics expected actual runsUsed
          budgetExhausted runFaults).icount = some icount ↔ lo = icount ∧ hi = icount := by
  by_cases h : lo = hi
  · subst h
    simp [makeReport]
  · simp [makeReport, h]
    omega

end MakeReport

end ReplayRenderer
