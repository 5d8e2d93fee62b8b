import ReplayRenderer.Lib.Blake3
import ReplayRenderer.Splice.Canonical
import ReplayRenderer.Splice.Grammar
import ReplayRenderer.Splice.Rules

/-!
What assembly decides. Each rule is a check of every edge in turn, so each
one passes when its condition holds along the path and otherwise names the
first edge where it does not; assembly runs the rules one after the other
and stops at the first that fails.
-/

namespace ReplayRenderer

open Lib Lib.Outcome

inductive Stage where
  | versions | machine | adjacency | structural | stateHashes | digests | logIds
  deriving DecidableEq, Repr

def Stage.all : List Stage :=
  [.versions, .machine, .adjacency, .structural, .stateHashes, .digests, .logIds]

def precedingNode (root : PathNode) (edges : List Edge) : Nat → PathNode
  | 0 => root
  | i + 1 =>
    match edges[i]? with
    | some (node, _) => node
    | none => root

section Rules

variable (blake3 : Bytes → Bytes32) (root : PathNode) (edges : List Edge)

def Stage.Holds : Stage → Nat → Edge → Prop
  | .versions, _, (_, seg) =>
    seg.header.version ∈ supportedDhilogVersions ∧
      ∀ first, edges.head? = some first → seg.header.version = first.2.header.version
  | .machine, _, (_, seg) =>
    ∀ first, edges.head? = some first →
      seg.header.machineConfigHash = first.2.header.machineConfigHash ∧
      (seg.header.clockNum, seg.header.clockDen) =
        (first.2.header.clockNum, first.2.header.clockDen)
  | .adjacency, i, (node, seg) =>
    seg.header.baseSnapshotId = (precedingNode root edges i).snapshotRef ∧
      (∀ j, i = j + 1 → ∀ prev, edges[j]? = some prev →
        prev.1.snapshotRef = prev.2.header.endSnapshotId) ∧
      node.parentId = some (precedingNode root edges i).nodeId
  | .structural, _, (_, seg) => validateStructure blake3 seg = .ok ()
  | .stateHashes, _, (node, _) => node.attrs.stateHash ≠ none
  | .digests, _, (node, seg) => node.attrs.stateHash = some seg.header.endStateHash
  | .logIds, _, (node, _) => node.inputLogId ≠ none

def Stage.Passes (stage : Stage) : Prop :=
  ∀ (i : Nat) (edge : Edge), edges[i]? = some edge → stage.Holds blake3 root edges i edge

/-- A violation of `rule` at edge `i`: its 1-based index, cut to 32 bits. -/
def ViolatesAt (rule : RuleId) (i : Nat) (e : SpliceError) : Prop :=
  ∃ idx detail, e = .rule rule idx detail ∧ idx.toNat = (i + 1) % 2 ^ 32

/-- The errors a stage can end with when edge `i` is the first it rejects. -/
def Stage.FailsWith : Stage → Nat → Edge → SpliceError → Prop
  | .versions, i, _, e => ViolatesAt .r1 i e
  | .machine, i, _, e => ViolatesAt .r2 i e
  | .adjacency, i, _, e => ViolatesAt .r3 i e
  | .structural, i, (_, seg), e =>
    ∃ issue, validateStructure blake3 seg = .err issue ∧
      (issue.rule = .r4 ∨ issue.rule = .r5) ∧ ViolatesAt issue.rule i e
  | .stateHashes, _, _, e =>
    e = .verifyUnsupported
      ((edges.filter fun edge => edge.1.attrs.stateHash.isNone).map fun edge => edge.1.nodeId)
  | .digests, i, _, e => ViolatesAt .r6 i e
  | .logIds, i, _, e => ViolatesAt .r3 i e

end Rules

/-! ### One lemma a stage -/

theorem violatesAt_segIdx {rule : RuleId} {i : Nat} {detail : String} :
    ViolatesAt rule i (.rule rule (segIdx i) detail) :=
  ⟨segIdx i, detail, rfl, UInt32.toNat_ofNat'⟩

/-- The check R1 makes against the version of the first segment. -/
def r1Edge (first : UInt16) (i : Nat) (edge : Edge) : Outcome SpliceError Unit := do
  rejectIf (edge.2.header.version ∉ supportedDhilogVersions)
    (.rule .r1 (segIdx i) ("unsupported DHILOG version 0x"
      ++ hexDigits 4 edge.2.header.version.toNat
      ++ " (supported: " ++ debugVersions supportedDhilogVersions ++ ")"))
  rejectIf (first ≠ edge.2.header.version)
    (.rule .r1 (segIdx i) ("mixed DHILOG versions on one path (0x" ++ hexDigits 4 first.toNat
      ++ " vs 0x" ++ hexDigits 4 edge.2.header.version.toNat ++ ")"))

theorem r1Loop_some (first : UInt16) (i : Nat) (edges : List Edge) :
    r1Loop (some first) i edges = forEnumerate (r1Edge first) i edges := by
  induction edges generalizing i with
  | nil => rfl
  | cons edge edges ih =>
      simp only [r1Loop, forEnumerate, r1Edge, ih, bind_assoc]

/-- What the loop carries is the first version, from the first pass on. -/
theorem r1Versions_cons (edge : Edge) (edges : List Edge) :
    r1Versions (edge :: edges) =
      forEnumerate (r1Edge edge.2.header.version) 0 (edge :: edges) := by
  have hself : (rejectIf (edge.2.header.version ≠ edge.2.header.version)
      (.rule .r1 (segIdx 0) ("mixed DHILOG versions on one path (0x"
        ++ hexDigits 4 edge.2.header.version.toNat ++ " vs 0x"
        ++ hexDigits 4 edge.2.header.version.toNat ++ ")")) : Outcome SpliceError Unit) =
      .ok () := rejectIf_neg (by simp)
  simp only [r1Versions, r1Loop, forEnumerate, r1Edge, r1Loop_some, bind_assoc, hself, ok_bind]

section Stages

variable {blake3 : Bytes → Bytes32} {root : PathNode} {edges : List Edge}

theorem r1Versions_decides :
    Decides (r1Versions edges) edges (Stage.Holds blake3 root edges .versions)
      (Stage.FailsWith blake3 edges .versions) := by
  cases edges with
  | nil => exact ⟨by simp [r1Versions, r1Loop], by simp [r1Versions, r1Loop],
      by simp [r1Versions, r1Loop]⟩
  | cons first rest =>
      rw [r1Versions_cons]
      refine forEnumerate_decides ?_ ?_ ?_
      · intro i edge _
        simp [r1Edge, bind_eq_ok, Stage.Holds, @eq_comm _ first.2.header.version]
      · intro i edge e _ he
        simp only [r1Edge, bind_eq_err, rejectIf_eq_err] at he
        rcases he with ⟨-, rfl⟩ | ⟨_, -, -, rfl⟩ <;> exact violatesAt_segIdx
      · intro i edge _ hp
        simp [r1Edge, bind_eq_panic] at hp

theorem r2MachineUniformity_decides :
    Decides (r2MachineUniformity edges) edges (Stage.Holds blake3 root edges .machine)
      (Stage.FailsWith blake3 edges .machine) := by
  cases edges with
  | nil => exact ⟨by simp [r2MachineUniformity], by simp [r2MachineUniformity],
      by simp [r2MachineUniformity]⟩
  | cons first rest =>
      refine forEnumerate_decides ?_ ?_ ?_
      · intro i edge _
        simp [bind_eq_ok, Stage.Holds]
      · intro i edge e _ he
        simp only [bind_eq_err, rejectIf_eq_err] at he
        rcases he with ⟨-, rfl⟩ | ⟨_, -, -, rfl⟩ <;> exact violatesAt_segIdx
      · intro i edge _ hp
        simp [bind_eq_panic] at hp

theorem exists_getElem?_pred {α : Type} {xs : List α} {j : Nat} {x : α}
    (h : xs[j + 1]? = some x) : ∃ y, xs[j]? = some y := by
  have hlt := (List.getElem?_eq_some_iff.mp h).1
  exact ⟨xs[j], List.getElem?_eq_getElem (by omega)⟩

theorem r3Adjacency_decides :
    Decides (r3Adjacency root edges) edges (Stage.Holds blake3 root edges .adjacency)
      (Stage.FailsWith blake3 edges .adjacency) := by
  refine forEnumerate_decides ?_ ?_ ?_
  · intro i edge hi
    cases i with
    | zero => simp [r3Edge, bind_eq_ok, Stage.Holds, precedingNode]
    | succ j =>
        obtain ⟨⟨prevNode, prevSeg⟩, hprev⟩ := exists_getElem?_pred hi
        simp [r3Edge, bind_eq_ok, Stage.Holds, precedingNode, hprev]
  · intro i edge e hi he
    cases i with
    | zero =>
        simp only [r3Edge, if_true, bind_eq_err, rejectIf_eq_err, pure_eq, ok_bind] at he
        rcases he with ⟨-, rfl⟩ | ⟨_, -, -, rfl⟩ <;> exact violatesAt_segIdx
    | succ j =>
        obtain ⟨prev, hprev⟩ := exists_getElem?_pred hi
        simp only [r3Edge, Nat.succ_ne_zero, if_false, Nat.add_sub_cancel, hprev, expect_some,
          ok_bind, bind_eq_err, rejectIf_eq_err, pure_eq] at he
        rcases he with ⟨-, rfl⟩ | ⟨_, -, ⟨-, rfl⟩ | ⟨_, -, -, rfl⟩⟩ <;> exact violatesAt_segIdx
  · intro i edge hi hp
    cases i with
    | zero => simp [r3Edge, bind_eq_panic] at hp
    | succ j =>
        obtain ⟨prev, hprev⟩ := exists_getElem?_pred hi
        simp [r3Edge, bind_eq_panic, hprev] at hp

theorem r4R5Structure_decides :
    Decides (r4R5Structure blake3 edges) edges (Stage.Holds blake3 root edges .structural)
      (Stage.FailsWith blake3 edges .structural) := by
  refine forEnumerate_decides ?_ ?_ ?_
  · intro i edge _
    simp [Stage.Holds]
  · intro i edge e _ he
    cases hv : validateStructure blake3 edge.2 with
    | ok u => simp [hv, mapErr] at he
    | err issue =>
        simp only [hv, mapErr, Outcome.err.injEq] at he
        subst he
        exact ⟨issue, hv, rule_of_validateStructure blake3 hv, violatesAt_segIdx⟩
    | panic => exact absurd hv (validateStructure_ne_panic blake3 _)
  · intro i edge _ hp
    cases hv : validateStructure blake3 edge.2 with
    | ok u => simp [hv, mapErr] at hp
    | err issue => simp [hv, mapErr] at hp
    | panic => exact absurd hv (validateStructure_ne_panic blake3 _)

def missingStateHashes (edges : List Edge) : List NodeId :=
  (edges.filter fun edge => edge.1.attrs.stateHash.isNone).map fun edge => edge.1.nodeId

theorem missingStateHashes_eq_nil (blake3 : Bytes → Bytes32) (root : PathNode) :
    missingStateHashes edges = [] ↔ Stage.Passes blake3 root edges .stateHashes := by
  simp only [missingStateHashes, List.map_eq_nil_iff, List.filter_eq_nil_iff,
    Option.isNone_iff_eq_none]
  constructor
  · intro h i edge hi
    exact h edge (List.mem_of_getElem? hi)
  · intro h edge hmem
    obtain ⟨i, hi⟩ := List.mem_iff_getElem?.mp hmem
    exact h i edge hi

theorem stateHashes_decides :
    Decides (rejectIf (missingStateHashes edges ≠ [])
        (.verifyUnsupported (missingStateHashes edges))) edges
      (Stage.Holds blake3 root edges .stateHashes)
      (Stage.FailsWith blake3 edges .stateHashes) where
  ok_iff := by
    rw [rejectIf_eq_ok, not_not, missingStateHashes_eq_nil blake3 root]
    rfl
  err := by
    intro e he
    obtain ⟨hne, rfl⟩ := rejectIf_eq_err.mp he
    -- the first edge that lacks a hash
    have hex : ∃ i : Nat, ∃ edge : Edge, edges[i]? = some edge ∧ edge.1.attrs.stateHash = none := by
      by_contra hnone
      apply hne
      rw [missingStateHashes_eq_nil blake3 root]
      intro i edge hi hmissing
      exact hnone ⟨i, edge, hi, hmissing⟩
    obtain ⟨edge, hi, hmissing⟩ := Nat.find_spec hex
    refine ⟨Nat.find hex, edge, hi, by simpa [Stage.Holds] using hmissing, ?_, rfl⟩
    intro j hj edge' hj' hmissing'
    exact Nat.find_min hex hj ⟨edge', hj', hmissing'⟩
  ne_panic := rejectIf_ne_panic

/-- The second half of R6. -/
def r6Digests (edges : List Edge) : Outcome SpliceError Unit :=
  forEnumerate (fun i edge => do
    let attr ← Outcome.expect edge.1.attrs.stateHash
    rejectIf (attr ≠ edge.2.header.endStateHash)
      (.rule .r6 (segIdx i) ("node " ++ toString edge.1.nodeId.toNat
        ++ "'s attrs.state_hash != segment end_state_hash (corrupt tree)"))) 0 edges

theorem r6Digests_decides (hall : Stage.Passes blake3 root edges .stateHashes) :
    Decides (r6Digests edges) edges (Stage.Holds blake3 root edges .digests)
      (Stage.FailsWith blake3 edges .digests) := by
  refine forEnumerate_decides ?_ ?_ ?_
  · intro i edge hi
    simp [bind_eq_ok, Stage.Holds]
  · intro i edge e hi he
    obtain ⟨attr, hattr⟩ := Option.ne_none_iff_exists'.mp (hall i edge hi)
    simp only [hattr, expect_some, ok_bind, rejectIf_eq_err] at he
    obtain ⟨-, rfl⟩ := he
    exact violatesAt_segIdx
  · intro i edge hi hp
    obtain ⟨attr, hattr⟩ := Option.ne_none_iff_exists'.mp (hall i edge hi)
    simp [hattr] at hp

/-- The check the table loop makes before it pushes. -/
def logIdEdge (i : Nat) (edge : Edge) : Outcome SpliceError Unit := do
  let _ ← Outcome.okOr
    (.rule .r3 (segIdx i) ("node " ++ toString edge.1.nodeId.toNat ++ " has no input_log_id"))
    edge.1.inputLogId
  pure ()

theorem logIds_decides :
    Decides (forEnumerate logIdEdge 0 edges) edges (Stage.Holds blake3 root edges .logIds)
      (Stage.FailsWith blake3 edges .logIds) := by
  refine forEnumerate_decides ?_ ?_ ?_
  · intro i edge _
    simp [logIdEdge, bind_eq_ok, Stage.Holds, Option.ne_none_iff_exists']
  · intro i edge e _ he
    cases hlog : edge.1.inputLogId with
    | some logId => simp [logIdEdge, hlog, okOr] at he
    | none =>
        simp only [logIdEdge, hlog, okOr, err_bind, Outcome.err.injEq] at he
        subst he
        exact violatesAt_segIdx
  · intro i edge _ hp
    cases hlog : edge.1.inputLogId <;> simp [logIdEdge, hlog, okOr] at hp

/-! ### The whole of assembly -/

def tableRow (edge : Edge) : ContainerSegment :=
  { nodeId := edge.1.nodeId
    baseSnapshotRef := edge.2.header.baseSnapshotId
    childSnapshotRef := edge.2.header.endSnapshotId
    endStateHash := edge.2.header.endStateHash
    logId := edge.1.inputLogId.getD Bytes32.zero
    blob := edge.2 }

theorem segmentTable_eq (i : Nat) (edges : List Edge) :
    segmentTable i edges =
      forEnumerate logIdEdge i edges >>= fun _ => pure (edges.map tableRow) := by
  induction edges generalizing i with
  | nil => rfl
  | cons edge edges ih =>
      cases hlog : edge.1.inputLogId with
      | none => simp [segmentTable, forEnumerate, logIdEdge, okOr, hlog]
      | some logId =>
          simp [segmentTable, forEnumerate, logIdEdge, okOr, hlog, ih, tableRow]

def assembled (root : PathNode) (edges : List Edge) (ctx : ContainerContext)
    (first goal : Edge) : DilogContainer :=
  { epochHashesEverywhere := edges.all fun edge => edge.2.header.flags &&& flagEpochHashes ≠ 0
    rootSnapshotRef := root.snapshotRef
    guestImageId := ctx.guestImageId
    machineConfigHash := first.2.header.machineConfigHash
    clockNum := first.2.header.clockNum
    clockDen := first.2.header.clockDen
    fpsNum := ctx.fpsNum
    fpsDen := ctx.fpsDen
    containerMeta :=
      { version := 1
        experimentId := ctx.experimentId
        goalNodeId := goal.1.nodeId
        determinismClass := ctx.determinismClass
        producer := producerString }
    segments := edges.map tableRow }

variable (blake3 root edges) in
def Stage.run : Stage → Outcome SpliceError Unit
  | .versions => r1Versions edges
  | .machine => r2MachineUniformity edges
  | .adjacency => r3Adjacency root edges
  | .structural => r4R5Structure blake3 edges
  | .stateHashes => rejectIf (missingStateHashes edges ≠ [])
      (.verifyUnsupported (missingStateHashes edges))
  | .digests => r6Digests edges
  | .logIds => forEnumerate logIdEdge 0 edges

theorem assemble_eq {ctx : ContainerContext} {first goal : Edge}
    (hfirst : edges.head? = some first) (hgoal : edges.getLast? = some goal) :
    assemble blake3 root edges ctx =
      runAll (Stage.run blake3 root edges) Stage.all >>= fun _ =>
        pure (assembled root edges ctx first goal) := by
  have hne : ¬edges.isEmpty = true := by
    cases edges with
    | nil => simp at hfirst
    | cons edge edges => simp
  have hzero : edges[0]? = some first := by
    rw [← List.head?_eq_getElem?]
    exact hfirst
  have hr6 : r6DigestTable edges = (do
      rejectIf (missingStateHashes edges ≠ []) (.verifyUnsupported (missingStateHashes edges))
      r6Digests edges) := rfl
  simp only [assemble, rejectIf_neg hne, ok_bind, validate, hr6, hzero, hgoal, expect_some,
    segmentTable_eq, runAll, Stage.all, Stage.run, bind_assoc, pure_eq, assembled]

/-- Every stage decides its condition; the digest comparison needs the hashes
to be there, which the stage before it has checked. -/
theorem Stage.decides (stage : Stage)
    (hdigests : stage = .digests → Stage.Passes blake3 root edges .stateHashes) :
    Decides (stage.run blake3 root edges) edges (stage.Holds blake3 root edges)
      (stage.FailsWith blake3 edges) := by
  cases stage with
  | versions => exact r1Versions_decides
  | machine => exact r2MachineUniformity_decides
  | adjacency => exact r3Adjacency_decides
  | structural => exact r4R5Structure_decides
  | stateHashes => exact stateHashes_decides
  | digests => exact r6Digests_decides (hdigests rfl)
  | logIds => exact logIds_decides

theorem stateHashes_mem_of_digests {pre post : List Stage}
    (h : Stage.all = pre ++ .digests :: post) : .stateHashes ∈ pre := by
  have hget : Stage.all[pre.length]? = some .digests := by
    rw [h]
    simp
  have hlen : pre.length = 5 := by
    have hlt := (List.getElem?_eq_some_iff.mp hget).1
    have honly : ∀ k < Stage.all.length, Stage.all[k]? = some .digests → k = 5 := by decide
    exact honly _ hlt hget
  have hpre : pre = Stage.all.take 5 := by
    rw [h, ← hlen, List.take_left]
  rw [hpre]
  decide

/-- A stage reached with every earlier stage passed decides its condition. -/
theorem Stage.decides_of_split {pre post : List Stage} {stage : Stage}
    (hall : Stage.all = pre ++ stage :: post)
    (hpre : ∀ s ∈ pre, s.Passes blake3 root edges) :
    Decides (stage.run blake3 root edges) edges (stage.Holds blake3 root edges)
      (stage.FailsWith blake3 edges) := by
  apply Stage.decides
  rintro rfl
  exact hpre _ (stateHashes_mem_of_digests hall)

/-- The stages that ran without error are the stages that pass, as long as
they are a prefix. -/
theorem passes_of_run {pre post : List Stage} (hall : Stage.all = pre ++ post)
    (hrun : ∀ s ∈ pre, s.run blake3 root edges = .ok ()) :
    ∀ s ∈ pre, s.Passes blake3 root edges := by
  induction pre using List.reverseRecOn generalizing post with
  | nil => simp
  | append_singleton pre stage ih =>
      rw [List.append_assoc, List.singleton_append] at hall
      have hpre := ih hall fun s hs => hrun s (List.mem_append_left _ hs)
      have hstage := (Stage.decides_of_split hall hpre).ok_iff.mp
        (hrun stage (List.mem_append_right _ (List.mem_singleton_self _)))
      intro s hs
      rcases List.mem_append.mp hs with hs | hs
      · exact hpre s hs
      · obtain rfl := List.mem_singleton.mp hs
        exact hstage

theorem Stage.mem_all (stage : Stage) : stage ∈ Stage.all := by
  cases stage <;> decide

theorem runAll_stages_eq_ok :
    runAll (Stage.run blake3 root edges) Stage.all = .ok () ↔
      ∀ stage : Stage, stage.Passes blake3 root edges := by
  rw [runAll_eq_ok]
  constructor
  · intro h stage
    exact passes_of_run (List.append_nil _).symm h stage stage.mem_all
  · intro h stage _
    exact (stage.decides fun _ => h .stateHashes).ok_iff.mpr (h stage)

theorem exists_ends {α : Type} {xs : List α} (hne : xs ≠ []) :
    ∃ first last, xs.head? = some first ∧ xs.getLast? = some last :=
  ⟨xs.head hne, xs.getLast hne, List.head?_eq_some_head hne, List.getLast?_eq_some_getLast hne⟩

theorem assemble_eq_ok {ctx : ContainerContext} {c : DilogContainer} :
    assemble blake3 root edges ctx = .ok c ↔
      (∀ stage : Stage, stage.Passes blake3 root edges) ∧
        ∃ first goal, edges.head? = some first ∧ edges.getLast? = some goal ∧
          c = assembled root edges ctx first goal := by
  by_cases hne : edges = []
  · subst hne
    simp [assemble, rejectIf]
  · obtain ⟨first, goal, hfirst, hgoal⟩ := exists_ends hne
    rw [assemble_eq hfirst hgoal, bind_eq_ok, ← runAll_stages_eq_ok]
    constructor
    · rintro ⟨_, hrun, hc⟩
      exact ⟨hrun, first, goal, hfirst, hgoal, (Outcome.ok.inj hc).symm⟩
    · rintro ⟨hrun, first', goal', hfirst', hgoal', rfl⟩
      obtain rfl : first = first' := Option.some.inj (hfirst.symm.trans hfirst')
      obtain rfl : goal = goal' := Option.some.inj (hgoal.symm.trans hgoal')
      exact ⟨(), hrun, rfl⟩

end Stages

/-- Assembly succeeds exactly on the non-empty paths that pass every stage,
never panics, and otherwise reports the first edge that the first failing
stage rejects; its 1-based index is cut to the 32 bits of the field. -/
theorem assemble_reports_first_violation (blake3 : Bytes → Bytes32) (root : PathNode)
    (edges : List Edge) (ctx : ContainerContext) :
    ((∃ c, assemble blake3 root edges ctx = .ok c) ↔
        edges ≠ [] ∧ ∀ stage : Stage, stage.Passes blake3 root edges) ∧
      assemble blake3 root edges ctx ≠ .panic ∧
      ∀ e, assemble blake3 root edges ctx = .err e →
        (edges = [] ∧ e = .rule .r3 0 "path has no edges (nothing to assemble)") ∨
        (edges ≠ [] ∧ ∃ pre stage post, Stage.all = pre ++ stage :: post ∧
          (∀ s ∈ pre, s.Passes blake3 root edges) ∧
          ∃ (i : Nat) (edge : Edge), edges[i]? = some edge ∧
            ¬stage.Holds blake3 root edges i edge ∧
            (∀ j < i, ∀ edge', edges[j]? = some edge' →
              stage.Holds blake3 root edges j edge') ∧
            stage.FailsWith blake3 edges i edge e) := by
  by_cases hne : edges = []
  · subst hne
    simp [assemble, rejectIf, eq_comm]
  obtain ⟨first, goal, hfirst, hgoal⟩ := exists_ends hne
  refine ⟨?_, ?_, ?_⟩
  · constructor
    · rintro ⟨c, hc⟩
      exact ⟨hne, (assemble_eq_ok.mp hc).1⟩
    · rintro ⟨-, hpass⟩
      exact ⟨_, assemble_eq_ok.mpr ⟨hpass, first, goal, hfirst, hgoal, rfl⟩⟩
  · intro hpanic
    rw [assemble_eq hfirst hgoal] at hpanic
    have hrun : runAll (Stage.run blake3 root edges) Stage.all = .panic := by
      simpa [bind_eq_panic] using hpanic
    obtain ⟨pre, stage, post, hall, hpre, hstage⟩ := runAll_ne_ok (by simp) hrun
    exact (Stage.decides_of_split hall (passes_of_run hall hpre)).ne_panic hstage
  · intro e he
    rw [assemble_eq hfirst hgoal] at he
    have hrun : runAll (Stage.run blake3 root edges) Stage.all = .err e := by
      simpa [bind_eq_err] using he
    obtain ⟨pre, stage, post, hall, hpre, hstage⟩ := runAll_ne_ok (by simp) hrun
    have hpass := passes_of_run hall hpre
    exact .inr ⟨hne, pre, stage, post, hall, hpass,
      (Stage.decides_of_split hall hpass).err e hstage⟩

/-! ### A segment with no events -/

def bareHeader (version : UInt16) (base end_ bodyHash : Bytes32) : DhilogHeader :=
  { version
    flags := flagSealed
    baseSnapshotId := base
    endSnapshotId := end_
    entropySeed := Bytes32.zero
    machineConfigHash := Bytes32.fill 3
    clockNum := 1
    clockDen := 1
    recordCount := 1
    endIcount := 0
    endVns := 0
    endStateHash := Bytes32.fill 7
    bodyHash }

def bareEnd : Record :=
  { kind := kindEnd
    rflags := rflagAux
    seq := 0
    icount := 0
    boundaryRip := 0
    payload := zeros 8 ++ (Bytes32.fill 7).bytes }

/-- A sealed segment whose one record is its END. -/
def bareSegment (blake3 : Bytes → Bytes32) (base end_ : Bytes32) : DhilogSegment :=
  DhilogSegment.ofParts (bareHeader 0x0100 base end_ (blake3 bareEnd.encode)) bareEnd.encode

theorem sealedSegment_bare (blake3 : Bytes → Bytes32) (base end_ : Bytes32) :
    SealedSegment blake3 (bareSegment blake3 base end_) [bareEnd] where
  isSealed := by simp [bareSegment, DhilogSegment.ofParts, bareHeader, flagSealed]
  hash_ne_zero := by
    change Bytes32.fill 7 ≠ Bytes32.zero
    decide
  body_hash := by
    rw [bareSegment, DhilogSegment.drop_ofParts]
    rfl
  body := by
    rw [bareSegment, DhilogSegment.drop_ofParts]
    simp
  grammar :=
    { count := rfl
      seq := by
        intro i r hr
        cases i with
        | zero =>
            obtain rfl : bareEnd = r := by simpa using hr
            rfl
        | succ i => simp at hr
      monotone := List.pairwise_singleton _ _
      allowed := by
        intro r hr
        obtain rfl := List.mem_singleton.mp hr
        exact ⟨.inr rfl, by decide, fun h => absurd rfl h, UInt64.le_refl _⟩
      terminal := ⟨[], bareEnd, rfl, ⟨rfl, rfl⟩,
        ⟨rfl, rfl, zeros 8, [], (List.append_nil _).symm, rfl⟩,
        by simp⟩ }

def DhilogSegment.ofRecords (blake3 : Bytes → Bytes32) (header : DhilogHeader)
    (rs : List Record) : DhilogSegment :=
  DhilogSegment.ofParts
    { header with
      recordCount := UInt64.ofNat rs.length
      bodyHash := blake3 (rs.flatMap Record.encode) } (rs.flatMap Record.encode)

theorem DhilogSegment.records_ofRecords {ε : Type} (blake3 : Bytes → Bytes32)
    (header : DhilogHeader) {rs : List Record} (hlen : ∀ r ∈ rs, r.payload.length < 2 ^ 16) :
    ((DhilogSegment.ofRecords blake3 header rs).records : Outcome ε _) = .ok (rs.map framed) := by
  obtain ⟨items, hitems, hspec⟩ :=
    (DhilogSegment.ofRecords blake3 header rs).records_eq_ok (ε := ε)
  rw [hitems, (hspec rs).mpr ⟨DhilogSegment.drop_ofParts _ _, hlen⟩]

def bareEdge (seg : DhilogSegment) (snapshot : Bytes32) : Edge :=
  ({ nodeId := 1
     parentId := some 0
     snapshotRef := snapshot
     inputLogId := some (Bytes32.fill 5)
     attrs := ⟨some (Bytes32.fill 7)⟩ }, seg)

def bareRoot : PathNode :=
  { nodeId := 0
    parentId := none
    snapshotRef := Bytes32.fill 1
    inputLogId := none
    attrs := ⟨none⟩ }

def bareContext : ContainerContext :=
  { experimentId := "exp"
    guestImageId := Bytes32.fill 4
    fpsNum := 60
    fpsDen := 1
    determinismClass := ⟨"cpu", "0x1", "6.1", "1.0"⟩ }

def goalEdge (blake3 : Bytes → Bytes32) (snapshot : Bytes32) : Edge :=
  bareEdge (bareSegment blake3 (Bytes32.fill 1) (Bytes32.fill 2)) snapshot

/-- A one-edge path is assembled whatever snapshot its goal node claims. -/
theorem assemble_goalEdge (blake3 : Bytes → Bytes32) (snapshot : Bytes32) :
    assemble blake3 bareRoot [goalEdge blake3 snapshot] bareContext =
      .ok (assembled bareRoot [goalEdge blake3 snapshot] bareContext
        (goalEdge blake3 snapshot) (goalEdge blake3 snapshot)) := by
  rw [assemble_eq_ok]
  refine ⟨?_, _, _, rfl, rfl, rfl⟩
  intro stage i edge hi
  cases i with
  | succ i => simp at hi
  | zero =>
      obtain rfl : goalEdge blake3 snapshot = edge := by simpa using hi
      have hvalid := (validateStructure_eq_ok blake3 _).mpr
        ⟨_, sealedSegment_bare blake3 (Bytes32.fill 1) (Bytes32.fill 2)⟩
      cases stage with
      | structural => exact hvalid
      | adjacency => exact ⟨rfl, by simp, rfl⟩
      | versions =>
          refine ⟨List.mem_singleton.mpr rfl, ?_⟩
          rintro first hfirst
          obtain rfl : goalEdge blake3 snapshot = first := by simpa using hfirst
          rfl
      | machine =>
          rintro first hfirst
          obtain rfl : goalEdge blake3 snapshot = first := by simpa using hfirst
          exact ⟨rfl, rfl⟩
      | stateHashes => exact Option.some_ne_none _
      | digests => rfl
      | logIds => exact Option.some_ne_none _

def unsupportedEdge : Edge :=
  bareEdge (DhilogSegment.ofParts
    (bareHeader 0x0200 (Bytes32.fill 1) (Bytes32.fill 2) Bytes32.zero) []) (Bytes32.fill 2)

/-- `n` edges of a supported version, then one of version 2. -/
def truncatingPath (blake3 : Bytes → Bytes32) (n : Nat) : List Edge :=
  List.replicate n (goalEdge blake3 (Bytes32.fill 2)) ++ [unsupportedEdge]

theorem forEnumerate_replicate_append {ε α : Type} {check : Nat → α → Outcome ε Unit} {x : α}
    (xs : List α) (n i : Nat) (hx : ∀ i, check i x = .ok ()) :
    forEnumerate check i (List.replicate n x ++ xs) = forEnumerate check (i + n) xs := by
  induction n generalizing i with
  | zero => rfl
  | succ n ih =>
      rw [List.replicate_succ, List.cons_append, forEnumerate, hx, ok_bind, ih, Nat.add_assoc,
        Nat.add_comm 1 n]

theorem assemble_truncatingPath (blake3 : Bytes → Bytes32) (n : Nat) :
    ∃ detail, assemble blake3 bareRoot (truncatingPath blake3 (n + 1)) bareContext =
      .err (.rule .r1 (segIdx (n + 1)) detail) := by
  have hgood : ∀ i, r1Edge 0x0100 i (goalEdge blake3 (Bytes32.fill 2)) = .ok () := by
    intro i
    have hversion : (goalEdge blake3 (Bytes32.fill 2)).2.header.version = 0x0100 := rfl
    rw [r1Edge, hversion, rejectIf_neg (by decide), ok_bind, rejectIf_neg (by decide)]
  have hversion : (goalEdge blake3 (Bytes32.fill 2)).2.header.version = 0x0100 := rfl
  have hr1 : r1Versions (truncatingPath blake3 (n + 1)) =
      forEnumerate (r1Edge 0x0100) (n + 1) [unsupportedEdge] := by
    have hsplit := forEnumerate_replicate_append [unsupportedEdge] (n + 1) 0 hgood
    rw [truncatingPath, List.replicate_succ, List.cons_append, r1Versions_cons,
      ← List.cons_append, ← List.replicate_succ, hversion, hsplit, Nat.zero_add]
  rw [assemble, rejectIf_neg (by simp [truncatingPath]), ok_bind, validate, hr1, forEnumerate,
    r1Edge, rejectIf_pos (by decide), err_bind, err_bind, err_bind, err_bind]
  exact ⟨_, rfl⟩

/-- On a path of `2 ^ 32` edges whose last one has an unsupported version the
first violation is at index `2 ^ 32`, and index 0 is reported. -/
theorem assemble_reports_index_zero :
    (∃ edge, (truncatingPath Blake3.hash (2 ^ 32 - 1))[2 ^ 32 - 1]? = some edge ∧
        edge.2.header.version ∉ supportedDhilogVersions) ∧
      (∀ j < 2 ^ 32 - 1, ∀ edge, (truncatingPath Blake3.hash (2 ^ 32 - 1))[j]? = some edge →
        edge.2.header.version ∈ supportedDhilogVersions) ∧
      ∃ detail, assemble Blake3.hash bareRoot (truncatingPath Blake3.hash (2 ^ 32 - 1))
        bareContext = .err (.rule .r1 0 detail) := by
  have hpath : ∀ n, (∃ edge, (truncatingPath Blake3.hash n)[n]? = some edge ∧
        edge.2.header.version ∉ supportedDhilogVersions) ∧
      ∀ j < n, ∀ edge, (truncatingPath Blake3.hash n)[j]? = some edge →
        edge.2.header.version ∈ supportedDhilogVersions := by
    intro n
    constructor
    · refine ⟨unsupportedEdge, ?_, ?_⟩
      · rw [truncatingPath, List.getElem?_append_right (by simp), List.length_replicate,
          Nat.sub_self]
        rfl
      · change (0x0200 : UInt16) ∉ supportedDhilogVersions
        decide
    · intro j hj edge hedge
      rw [truncatingPath, List.getElem?_append_left (by rwa [List.length_replicate]),
        List.getElem?_replicate, if_pos hj] at hedge
      obtain rfl := Option.some.inj hedge
      exact List.mem_singleton.mpr rfl
  obtain ⟨detail, herr⟩ := assemble_truncatingPath Blake3.hash (2 ^ 32 - 2)
  exact ⟨(hpath _).1, (hpath _).2, detail, herr⟩

/-! ### Lineage -/

/-- Every table entry says what the path says: its node, the node's
snapshot, the snapshot of the node before it, and the node's state hash. -/
def LineageMatches (root : PathNode) (edges : List Edge) (c : DilogContainer) : Prop :=
  c.segments.length = edges.length ∧
    ∀ (i : Nat) (edge : Edge) (seg : ContainerSegment), edges[i]? = some edge →
      c.segments[i]? = some seg →
        seg.nodeId = edge.1.nodeId ∧ seg.childSnapshotRef = edge.1.snapshotRef ∧
          seg.baseSnapshotRef = (precedingNode root edges i).snapshotRef ∧
          some seg.endStateHash = edge.1.attrs.stateHash

/-- The look-back of R3 leaves one node unchecked, the goal: the table of an
assembled container matches the path exactly when the goal node's snapshot
is where the last segment ends. -/
theorem lineageMatches_iff_goal {blake3 : Bytes → Bytes32} {root : PathNode}
    {edges : List Edge} {ctx : ContainerContext} {c : DilogContainer}
    (hc : assemble blake3 root edges ctx = .ok c) :
    LineageMatches root edges c ↔
      ∀ goal, edges.getLast? = some goal →
        goal.1.snapshotRef = goal.2.header.endSnapshotId := by
  obtain ⟨hpass, first, goal, -, hgoal, rfl⟩ := assemble_eq_ok.mp hc
  have hrow : ∀ (i : Nat) (edge : Edge), edges[i]? = some edge →
      (assembled root edges ctx first goal).segments[i]? = some (tableRow edge) := by
    intro i edge hi
    simp [assembled, hi]
  constructor
  · rintro ⟨-, hmatch⟩ goal' hgoal'
    rw [List.getLast?_eq_getElem?] at hgoal'
    exact ((hmatch _ _ _ hgoal' (hrow _ _ hgoal')).2.1).symm
  · intro hlast
    refine ⟨by simp [assembled], ?_⟩
    intro i edge seg hi hseg
    obtain rfl : tableRow edge = seg := Option.some.inj ((hrow i edge hi).symm.trans hseg)
    refine ⟨rfl, ?_, (hpass .adjacency i edge hi).1, (hpass .digests i edge hi).symm⟩
    cases hnext : edges[i + 1]? with
    | some next =>
        -- the next edge looks back at this one
        exact ((hpass .adjacency (i + 1) next hnext).2.1 i rfl edge hi).symm
    | none =>
        have hend : i + 1 = edges.length := by
          have hlt := (List.getElem?_eq_some_iff.mp hi).1
          have hge := List.getElem?_eq_none_iff.mp hnext
          omega
        refine (hlast edge ?_).symm
        rw [List.getLast?_eq_getElem?, ← hend, Nat.add_sub_cancel]
        exact hi

theorem lineageMatches_iff_goal_bare :
    LineageMatches bareRoot [goalEdge Blake3.hash (Bytes32.fill 2)]
        (assembled bareRoot [goalEdge Blake3.hash (Bytes32.fill 2)] bareContext
          (goalEdge Blake3.hash (Bytes32.fill 2)) (goalEdge Blake3.hash (Bytes32.fill 2))) ↔
      ∀ goal, [goalEdge Blake3.hash (Bytes32.fill 2)].getLast? = some goal →
        goal.1.snapshotRef = goal.2.header.endSnapshotId :=
  lineageMatches_iff_goal (assemble_goalEdge Blake3.hash (Bytes32.fill 2))

/-- A path whose goal node claims another snapshot than its segment ends at
is assembled, into a table that contradicts the path. -/
theorem assemble_accepts_wrong_goal :
    ∃ c, assemble Blake3.hash bareRoot [goalEdge Blake3.hash (Bytes32.fill 9)] bareContext =
        .ok c ∧
      c.segments.map ContainerSegment.childSnapshotRef = [Bytes32.fill 2] ∧
      [goalEdge Blake3.hash (Bytes32.fill 9)].map (fun edge => edge.1.snapshotRef) =
        [Bytes32.fill 9] ∧
      ¬LineageMatches bareRoot [goalEdge Blake3.hash (Bytes32.fill 9)] c := by
  refine ⟨_, assemble_goalEdge Blake3.hash (Bytes32.fill 9), rfl, rfl, ?_⟩
  rintro ⟨-, hmatch⟩
  have hchild : Bytes32.fill 2 = Bytes32.fill 9 := (hmatch 0 _ _ rfl rfl).2.1
  exact absurd hchild (by decide)

end ReplayRenderer
