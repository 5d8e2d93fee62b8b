import ReplayRenderer.Verify.Archive
import ReplayRenderer.Verify.Decided

/-!
One hypervisor for both passes over an archive. A walk replays every segment once
and never asks the oracle, so a mock with a defect of the recording stops at the bad
segment as a clean one would; and bisection of the row it stopped at, with the same
mock, comes to the icount.
-/

namespace ReplayRenderer

open Lib Lib.Outcome

/-- From the file to the icount, with one mock. The walk over the rows of the
file stops at the skewed segment after one run a segment, and bisection of that
row, from the node before it and against the row's own hash, blames the recording
and localizes the skew as far as its runs go. -/
theorem archive_localizes {blake3 : Bytes → Bytes32} {serde : SerdeJson} {root : PathNode}
    {specs pre post : List SegmentSpec} {edges : List Edge} {ctx : ContainerContext}
    {maxRuns : UInt32} {spec : SegmentSpec} {at_ : UInt64}
    (hpath : RecordedPath blake3 root.snapshotRef specs edges)
    (ha : Archivable root specs edges)
    (hstored : ∀ c, assemble blake3 root edges ctx = .ok c → Storable blake3 serde c)
    (hruns : specs.length ≤ maxRuns.toNat) (hsplit : specs = pre ++ spec :: post)
    (hclean : ∀ other ∈ pre, other.skewAt = none) (hskew : spec.skewAt = some at_)
    (homit : spec.omitEpochHashes = false)
    (hfree : CollisionFree blake3 (spec.seed blake3) spec.endIcount.toNat spec.timeline
      (spec.recorded at_))
    (hchange : fnvFold (register (before at_.toNat spec.timeline)) skewFold ≠
      register (before at_.toNat spec.timeline)) :
    ∃ c, assemble blake3 root edges ctx = .ok c ∧
      DilogContainer.read blake3 serde (c.write blake3 serde) = .ok c ∧
      ∃ bad expected actual s', (rebuildEdges root.nodeId c.segments)[pre.length]? = some bad ∧
        bad.1.attrs.stateHash = some expected ∧ actual ≠ expected ∧
        verify root (rebuildEdges root.nodeId c.segments)
            ⟨MockHypervisor.new blake3 (.recordedSkew (segIdx pre.length) at_),
              RunBudget.new maxRuns.toNat, []⟩ =
          (.ok (.diverged (segIdx pre.length)
            ((precedingNode root (rebuildEdges root.nodeId c.segments) pre.length).nodeId,
              bad.1.nodeId) expected actual), s') ∧
        s'.hv.runs = pre.length + 1 ∧
        ∀ (identity : BisectIdentity) (opts : BisectOptions),
          identity.segmentIndex = segIdx pre.length → ∃ report mock',
            bisect (precedingNode root (rebuildEdges root.nodeId c.segments)
                pre.length).snapshotRef bad.2 expected identity opts s'.hv =
              (.ok report, mock') ∧
            Localized spec at_ (opts.maxRuns - opts.phase1Runs) report := by
  obtain ⟨c, hassemble, hread, hsegments⟩ :=
    archived hpath ha hstored (hruns.trans_lt maxRuns.toNat_lt)
  refine ⟨c, hassemble, hread, ?_⟩
  have hrebuilt := hpath.rebuild root.nodeId
  rw [← hsegments] at hrebuilt
  generalize rebuildEdges root.nodeId c.segments = rows at hrebuilt
  have henough : 0 + pre.length < maxRuns.toNat := by
    rw [hsplit, List.length_append, List.length_cons] at hruns
    omega
  have hspec : specs[pre.length]? = some spec := by
    rw [hsplit, List.getElem?_append_right (le_refl _), Nat.sub_self, List.getElem?_cons_zero]
  -- the row that the walk comes to was written from the skewed spec
  obtain ⟨bad, expected, hbad, hedge⟩ := hrebuilt.exists_row hspec
  have hreplays : (InjectedDefect.recordedSkew (segIdx pre.length) at_).ReplaysClean := trivial
  have hscript : ∀ run index (other : SegmentSpec),
      (InjectedDefect.recordedSkew (segIdx pre.length) at_).timeline run index other =
        other.timeline := fun run index _ => timeline_of_replaysClean hreplays run index
  have hend := endOf_withFold_ne hedge.written.valid (hedge.written.valid.skew_le at_ hskew)
    hchange hfree
  rw [hsplit] at hrebuilt
  obtain ⟨bad', expected', actual, s', hbad', hexpected, hactual, hverify, hs'⟩ :=
    verify_stops hrebuilt
      (s := ⟨MockHypervisor.new blake3 (.recordedSkew (segIdx pre.length) at_),
        RunBudget.new maxRuns.toNat, []⟩) henough
      (by
        intro i other hi
        rw [MockHypervisor.Replays, MockHypervisor.new, hscript]
        exact replayedBy_of_steady (hclean other (List.mem_of_getElem? hi)))
      (by
        rw [MockHypervisor.Replays, MockHypervisor.new, hscript]
        exact not_replayedBy_of_skew hedge.written.valid hskew hfree hchange)
  -- it is the row that the walk reports, with the hash of the row itself
  obtain rfl := Option.some.inj (hbad.symm.trans hbad')
  obtain rfl := Option.some.inj (hedge.stateHash.symm.trans hexpected)
  refine ⟨bad, expected, actual, s', hbad, hedge.stateHash, ?_, hverify, ?_, ?_⟩
  · rw [hactual, MockHypervisor.new, hscript, hedge.written.hash_eq, SegmentSpec.recording, hskew]
    exact hend
  · exact hs'.runs.trans (Nat.zero_add _)
  · intro identity opts hindex
    obtain ⟨bytes, hwrite, hparse⟩ := hedge.parsed
    obtain ⟨segment, hparse', hwritten⟩ := skewedAs_of_writeSegment hwrite homit hskew
    obtain rfl := Outcome.ok.inj (hparse.symm.trans hparse')
    rw [← hedge.base_eq]
    exact bisect_skewed hwritten hfree hchange identity expected opts s'.hv
      (hs'.defect.trans (congrArg (fun index => InjectedDefect.recordedSkew index at_) hindex.symm))

/-- With the default budget the report names the icount. -/
theorem archive_localizes_threeEpochs :
    ∃ edges c, assemble Blake3.hash pathRoot edges bareContext = .ok c ∧
      DilogContainer.read Blake3.hash bareSerde (c.write Blake3.hash bareSerde) = .ok c ∧
      ∃ bad expected actual s', (rebuildEdges pathRoot.nodeId c.segments)[1]? = some bad ∧
        bad.1.attrs.stateHash = some expected ∧ actual ≠ expected ∧
        verify pathRoot (rebuildEdges pathRoot.nodeId c.segments)
            ⟨MockHypervisor.new Blake3.hash (.recordedSkew (segIdx 1) 12286), RunBudget.new 2,
              []⟩ =
          (.ok (.diverged (segIdx 1)
            ((precedingNode pathRoot (rebuildEdges pathRoot.nodeId c.segments) 1).nodeId,
              bad.1.nodeId) expected actual), s') ∧
        s'.hv.runs = 2 ∧ ∃ report mock',
          bisect (precedingNode pathRoot (rebuildEdges pathRoot.nodeId c.segments) 1).snapshotRef
              bad.2 expected { bareIdentity with segmentIndex := segIdx 1 } {} s'.hv =
            (.ok report, mock') ∧
          report.classification = .recordedDivergence ∧ report.offsetKind = .exactIcount ∧
          report.icount = some 12286 := by
  obtain ⟨edges, hpath, harchivable, hstored⟩ := exists_archivable_threeEpochs
  have hsplit : [leadIn, threeEpochs] = [leadIn] ++ threeEpochs :: [] := rfl
  obtain ⟨c, hassemble, hread, bad, expected, actual, s', hbad, hexpected, hactual, hverify, hruns,
    hbisect⟩ := archive_localizes hpath harchivable hstored
      (show [leadIn, threeEpochs].length ≤ (2 : UInt32).toNat by decide) hsplit (by simp [leadIn])
      rfl rfl collisionFree_threeEpochs skewFold_threeEpochs
  obtain ⟨report, mock', hreport, hlocalized⟩ :=
    hbisect { bareIdentity with segmentIndex := segIdx 1 } {} rfl
  have hleft := hlocalized.left_of_enough (by decide) (by decide)
  exact ⟨edges, c, hassemble, hread, bad, expected, actual, s', hbad, hexpected, hactual, hverify,
    hruns, report, mock', hreport, hlocalized.classification, hlocalized.exact_of_left hleft⟩

end ReplayRenderer
