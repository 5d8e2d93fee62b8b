import ReplayRenderer.Verify.Skew
import ReplayRenderer.Verify.Verify

/-!
Recording and replay, end to end. A path whose segments the writer recorded
is verified edge by edge, one run each, and the events sent say so epoch by
epoch; a path with a skewed segment in it diverges there.
-/

namespace ReplayRenderer

open Lib Lib.Outcome

/-! ### One segment -/

def SegmentSpec.replayEvents (spec : SegmentSpec) (segmentIndex : UInt32) : List VerifyEvent :=
  [.segmentStarted segmentIndex] ++
    (List.range' 1 spec.epochCount).map (fun k =>
      .epochOk segmentIndex (UInt64.ofNat k) (k * mockEpochIcounts)) ++
    [.runCompleted segmentIndex]

section Segment

variable {blake3 : Bytes → Bytes32} {spec : SegmentSpec} {segment : DhilogSegment} {hash : Bytes32}
  (hw : Recorded blake3 spec segment hash) {opts : VerifyOpts}
  {s : HvState (MockHypervisor blake3)} (hlt : s.budget.used < s.budget.maxRuns)
  (hdefect : s.hv.defect = .none)

theorem agrees_of_mem_epochsOf {seed : Bytes32} {l : List Moment} {n : Nat}
    {epoch : RecordedEpoch} (h : epoch ∈ epochsOf blake3 seed l n) :
    epoch.Agrees blake3 seed l := by
  obtain ⟨k, -, rfl⟩ := List.mem_map.mp h
  rw [RecordedEpoch.Agrees, Nat.mul_div_cancel _ (by decide)]

theorem map_event_epochsOf {seed : Bytes32} {l : List Moment} {n : Nat} (index : UInt32) :
    (epochsOf blake3 seed l n).map (RecordedEpoch.event index) =
      (List.range' 1 n).map fun k => .epochOk index (UInt64.ofNat k) (k * mockEpochIcounts) := by
  rw [epochsOf, List.map_map]
  rfl

include hw hdefect

theorem verifySegment_clean (hskew : spec.skewAt = none) :
    HypervisorReplay.verifySegment spec.baseSnapshotId segment opts s =
      (.ok (.verified hash spec.epochCount),
        s.afterRun hlt (s.events ++ spec.replayEvents opts.segmentIndex)) := by
  have hrecording : spec.recording = spec.timeline := by
    rw [SegmentSpec.recording, hskew]
  have hdone : (s.hv.defect.foldFor (.replayed s.hv.runs) opts.segmentIndex).done = true := by
    rw [hdefect]
    rfl
  have htimeline := replayTimeline_script hw hdone
  have hhash : replayHash blake3 s.hv.defect segment (.replayed s.hv.runs) opts.segmentIndex
      (spec.recordList blake3) = hash := by
    rw [replayHash_script hw hdone, hw.hash_eq, hrecording]
  have hcall := verifySegment_replay hw opts hlt
  rw [hrecording] at hcall
  generalize hresult : HypervisorReplay.verifySegment spec.baseSnapshotId segment opts s = result
    at hcall
  cases hcall with
  | diverged hbad =>
      rcases hbad with ⟨epoch, hepoch, hne⟩ | hne
      · -- the recorded chain is the one the replay comes to
        rw [htimeline, hw.seed_eq] at hne
        exact absurd (agrees_of_mem_epochsOf hepoch) hne
      · exact absurd (hhash.trans hw.endStateHash.symm) hne
  | malformed hbad =>
      obtain ⟨r, hr, hbad⟩ := hbad
      exact absurd hbad (wellFormed_recordList hw r hr)
  | verified hwell hagrees hend =>
      rw [hhash, length_epochsOf, map_event_epochsOf, SegmentSpec.replayEvents]
      simp only [List.append_assoc]

variable (opts) in
theorem verifySegment_skewed {at_ : UInt64} (hskew : spec.skewAt = some at_)
    (hfree : CollisionFree blake3 (spec.seed blake3) spec.endIcount.toNat spec.timeline
      (spec.recorded at_))
    (hchange : fnvFold (register (before at_.toNat spec.timeline)) skewFold ≠
      register (before at_.toNat spec.timeline))
    (hopts : opts.bisectOnDivergence = false) :
    ∃ d events, HypervisorReplay.verifySegment spec.baseSnapshotId segment opts s =
      (.ok (.diverged d), s.afterRun hlt events) := by
  have hdone : ∀ side, (s.hv.defect.foldFor side opts.segmentIndex).done = true := by
    intro side
    rw [hdefect]
    cases side <;> rfl
  have hend : segment.header.endIcount.toNat = spec.endIcount.toNat :=
    congrArg UInt64.toNat hw.endIcount
  obtain ⟨events, hcall⟩ := verifySegment_of_skew hw hskew hfree hchange (hdone _) hlt
  rw [hcall, reportDivergence]
  simp only [hend]
  rw [Proc.lift_bind_apply (simTo_script hw (hdone _) (le_refl _))]
  simp only [if_pos hopts]
  rw [diagnostics, simTo_script hw (hdone _) (le_refl _), simTo_script hw (hdone _) (le_refl _)]
  exact ⟨_, _, rfl⟩

end Segment

/-! ### A path -/

/-- A path that was recorded edge by edge: a segment starts at the snapshot
that the one before it left, and its node has the hash written with it. -/
inductive RecordedPath (blake3 : Bytes → Bytes32) :
    SnapshotRef → List SegmentSpec → List Edge → Prop
  | nil {base : SnapshotRef} : RecordedPath blake3 base [] []
  | cons {base : SnapshotRef} {spec : SegmentSpec} {specs : List SegmentSpec} {node : PathNode}
      {segment : DhilogSegment} {edges : List Edge} {bytes : Bytes} {hash : Bytes32}
      (write : (writeSegment blake3 spec : Outcome Empty _) = .ok (bytes, hash))
      (parse : DhilogSegment.parse bytes = .ok segment) (base_eq : spec.baseSnapshotId = base)
      (snapshot : node.snapshotRef = spec.endSnapshotId)
      (stateHash : node.attrs.stateHash = some hash)
      (rest : RecordedPath blake3 spec.endSnapshotId specs edges) :
      RecordedPath blake3 base (spec :: specs) ((node, segment) :: edges)

theorem RecordedPath.uncons {blake3 : Bytes → Bytes32} {base : SnapshotRef} {spec : SegmentSpec}
    {specs : List SegmentSpec} {edges : List Edge}
    (h : RecordedPath blake3 base (spec :: specs) edges) :
    ∃ edge rest bytes hash, edges = edge :: rest ∧ spec.baseSnapshotId = base ∧
      (writeSegment blake3 spec : Outcome Empty _) = .ok (bytes, hash) ∧
      edge.1.attrs.stateHash = some hash ∧ Recorded blake3 spec edge.2 hash ∧
      RecordedPath blake3 edge.1.snapshotRef specs rest := by
  cases h with
  | cons write parse base_eq snapshot stateHash rest =>
      obtain ⟨segment, hparse, hw⟩ := writtenAs_of_writeSegment write
      obtain rfl := Outcome.ok.inj (parse.symm.trans hparse)
      rw [← snapshot] at rest
      exact ⟨_, _, _, _, rfl, base_eq, write, stateHash, hw.toRecorded, rest⟩

def Chained : SnapshotRef → List SegmentSpec → Prop
  | _, [] => True
  | base, spec :: specs => spec.baseSnapshotId = base ∧ Chained spec.endSnapshotId specs

/-- What the writer's assertions admit can be recorded. -/
theorem exists_recordedPath (blake3 : Bytes → Bytes32) {specs : List SegmentSpec}
    (hwritable : ∀ spec ∈ specs, Writable spec) (hbounded : ∀ spec ∈ specs, spec.Bounded)
    (hcount : ∀ spec ∈ specs, spec.recordCount < 2 ^ 32) :
    ∀ {base : SnapshotRef}, Chained base specs →
      ∃ edges, RecordedPath blake3 base specs edges := by
  induction specs with
  | nil => exact fun _ => ⟨[], .nil⟩
  | cons spec specs ih =>
      intro base hchained
      have hmem : spec ∈ spec :: specs := List.mem_cons_self ..
      obtain ⟨edges, hedges⟩ := ih (fun q hq => hwritable q (List.mem_cons_of_mem _ hq))
        (fun q hq => hbounded q (List.mem_cons_of_mem _ hq))
        (fun q hq => hcount q (List.mem_cons_of_mem _ hq)) hchained.2
      obtain ⟨bytes, hash, hwrite⟩ := exists_writeSegment blake3 Empty (hwritable spec hmem)
        (hbounded spec hmem) (hcount spec hmem)
      obtain ⟨segment, hparse, -⟩ := writtenAs_of_writeSegment hwrite
      exact ⟨({ bareRoot with snapshotRef := spec.endSnapshotId, attrs := ⟨some hash⟩ }, segment)
        :: edges, .cons hwrite hparse hchained.1 rfl rfl hedges⟩

def pathEvents (specs : List SegmentSpec) : List VerifyEvent :=
  (specs.mapIdx fun i spec => spec.replayEvents (segIdx i)).flatten

theorem pathEvents_concat (specs : List SegmentSpec) (spec : SegmentSpec) :
    pathEvents (specs ++ [spec]) = pathEvents specs ++ spec.replayEvents (segIdx specs.length) := by
  simp [pathEvents]

/-- The mock after a walk has verified the segments of `done`, the last of
which was written with `lastHash`. -/
structure Replayed (blake3 : Bytes → Bytes32) (done : List SegmentSpec) (lastHash : StateHash)
    (s : HvState (MockHypervisor blake3)) : Prop where
  defect : s.hv.defect = .none
  runs : s.hv.runs = done.length
  used : s.budget.used = done.length
  events : s.events = pathEvents done
  last : ∀ spec ∈ done.getLast?, ∃ bytes,
    (writeSegment blake3 spec : Outcome Empty _) = .ok (bytes, lastHash)

theorem Replayed.concat {blake3 : Bytes → Bytes32} {done : List SegmentSpec}
    {lastHash : StateHash} {s : HvState (MockHypervisor blake3)} {spec : SegmentSpec}
    {bytes : Bytes} {hash : Bytes32} (hs : Replayed blake3 done lastHash s)
    (hlt : s.budget.used < s.budget.maxRuns)
    (hwrite : (writeSegment blake3 spec : Outcome Empty _) = .ok (bytes, hash)) :
    Replayed blake3 (done ++ [spec]) hash
      (s.afterRun hlt (s.events ++ spec.replayEvents (segIdx done.length))) where
  defect := hs.defect
  runs := by
    rw [List.length_append, ← hs.runs]
    rfl
  used := by
    rw [List.length_append, ← hs.used]
    rfl
  events := by
    rw [pathEvents_concat, ← hs.events]
    rfl
  last := by
    intro last hlast
    rw [List.getLast?_concat] at hlast
    obtain rfl := Option.some.inj hlast
    exact ⟨bytes, hwrite⟩

theorem precedingNode_append (root : PathNode) (pre rest : List Edge) (edge : Edge) :
    precedingNode root (pre ++ edge :: rest) (pre.length + 1) = edge.1 := by
  have hget : (pre ++ edge :: rest)[pre.length]? = some edge := by
    rw [List.getElem?_append_right (le_refl _), Nat.sub_self, List.getElem?_cons_zero]
  rw [precedingNode, hget]

/-- A walk that has come to the end of `pre`, with the path of `todo` ahead and
the runs for it. -/
structure Walked (blake3 : Bytes → Bytes32) (root : PathNode) (pre rest : List Edge)
    (done todo : List SegmentSpec) (lastHash : StateHash) (s : HvState (MockHypervisor blake3)) :
    Prop where
  length_eq : pre.length = done.length
  path : RecordedPath blake3 (precedingNode root (pre ++ rest) pre.length).snapshotRef todo rest
  enough : done.length + todo.length ≤ s.budget.maxRuns
  replayed : Replayed blake3 done lastHash s

section Path

variable {blake3 : Bytes → Bytes32} {root : PathNode} {pre rest : List Edge}
  {done todo : List SegmentSpec} {lastHash : StateHash} {s : HvState (MockHypervisor blake3)}

/-- One edge of a walk whose segment has no skew. -/
theorem Walked.step {spec : SegmentSpec}
    (h : Walked blake3 root pre rest done (spec :: todo) lastHash s) (hskew : spec.skewAt = none) :
    ∃ pre' rest' hash s', Walked blake3 root pre' rest' (done ++ [spec]) todo hash s' ∧
      pre' ++ rest' = pre ++ rest ∧
      verifyLoop root (pre ++ rest) pre.length lastHash rest s =
        verifyLoop root (pre ++ rest) pre'.length hash rest' s' := by
  obtain ⟨hlen, hpath, henough, hs⟩ := h
  obtain ⟨edge, rest', bytes, hash, rfl, hbase, hwrite, hhash, hw, hpath⟩ := hpath.uncons
  rw [List.length_cons] at henough
  have hlt : s.budget.used < s.budget.maxRuns := by
    rw [hs.used]
    omega
  obtain ⟨result, s', hcall, hpass, -⟩ := verifyLoop_cons root pre rest' lastHash hhash s
  rw [← hbase, verifySegment_clean hw hlt hs.defect hskew] at hcall
  obtain ⟨rfl, hs'⟩ := Prod.mk.inj hcall
  have hreplayed : Replayed blake3 (done ++ [spec]) hash s' := by
    rw [← hs', hlen]
    exact hs.concat hlt hwrite
  have hmax : s'.budget.maxRuns = s.budget.maxRuns := by
    rw [← hs']
    rfl
  refine ⟨pre ++ [edge], rest', hash, s', ⟨?_, ?_, ?_, hreplayed⟩, (List.append_cons ..).symm, ?_⟩
  · rw [List.length_append, List.length_append, hlen]
    rfl
  · rw [← List.append_cons, List.length_append, List.length_singleton, precedingNode_append]
    exact hpath
  · rw [List.length_append, List.length_singleton, hmax]
    omega
  · rw [hpass ⟨hash, _, rfl, hhash⟩, List.length_append, List.length_singleton]

/-- A walk goes through segments without a skew. -/
theorem Walked.run {specs : List SegmentSpec} (hclean : ∀ spec ∈ specs, spec.skewAt = none) :
    ∀ {pre rest : List Edge} {done : List SegmentSpec} {lastHash : StateHash}
      {s : HvState (MockHypervisor blake3)},
      Walked blake3 root pre rest done (specs ++ todo) lastHash s →
      ∃ pre' rest' hash s', Walked blake3 root pre' rest' (done ++ specs) todo hash s' ∧
        pre' ++ rest' = pre ++ rest ∧
        verifyLoop root (pre ++ rest) pre.length lastHash rest s =
          verifyLoop root (pre ++ rest) pre'.length hash rest' s' := by
  induction specs with
  | nil =>
      intro pre rest done lastHash s h
      rw [List.append_nil]
      exact ⟨pre, rest, lastHash, s, h, rfl, rfl⟩
  | cons spec specs ih =>
      intro pre rest done lastHash s h
      obtain ⟨pre₁, rest₁, hash₁, s₁, h₁, hedges₁, hloop₁⟩ :=
        Walked.step h (hclean spec (List.mem_cons_self ..))
      obtain ⟨pre', rest', hash, s', h', hedges, hloop⟩ :=
        ih (fun spec' hmem => hclean spec' (List.mem_cons_of_mem _ hmem)) h₁
      refine ⟨pre', rest', hash, s', ?_, hedges.trans hedges₁, ?_⟩
      · rwa [List.append_cons]
      · rw [hloop₁, ← hedges₁, hloop]

def cleanStart (blake3 : Bytes → Bytes32) (maxRuns : UInt32) : HvState (MockHypervisor blake3) :=
  ⟨MockHypervisor.new blake3 .none, RunBudget.new maxRuns.toNat, []⟩

variable {specs : List SegmentSpec} {edges : List Edge} {maxRuns : UInt32}
  (hpath : RecordedPath blake3 root.snapshotRef specs edges)
  (hruns : specs.length ≤ maxRuns.toNat)

include hpath hruns

theorem walked_start :
    Walked blake3 root [] edges [] specs Bytes32.zero (cleanStart blake3 maxRuns) where
  length_eq := rfl
  path := hpath
  enough := by
    rw [List.length_nil, Nat.zero_add]
    exact hruns
  replayed := ⟨rfl, rfl, rfl, rfl, by simp⟩

theorem verify_of_clean (hne : specs ≠ []) (hclean : ∀ spec ∈ specs, spec.skewAt = none) :
    ∃ last bytes hash count s', specs.getLast? = some last ∧
      (writeSegment blake3 last : Outcome Empty _) = .ok (bytes, hash) ∧
      verify root edges (cleanStart blake3 maxRuns) = (.ok (.verified hash count), s') ∧
      count.toNat = specs.length ∧ s'.hv.runs = specs.length ∧ s'.budget.used = specs.length ∧
      s'.events = pathEvents specs := by
  have hstart := walked_start hpath hruns
  rw [← List.append_nil specs] at hstart
  obtain ⟨pre, rest, hash, s', ⟨hlen, hrest, -, hs⟩, hedges, hloop⟩ := hstart.run hclean
  cases hrest
  rw [List.append_nil, List.nil_append] at hedges
  obtain rfl := hedges
  obtain ⟨bytes, hwrite⟩ := hs.last _ (List.getLast?_eq_some_getLast hne)
  refine ⟨_, bytes, hash, UInt32.ofNat pre.length, s', List.getLast?_eq_some_getLast hne, hwrite,
    hloop, ?_, hs.runs, hs.used, hs.events⟩
  rw [UInt32.toNat_ofNat_of_lt', hlen]
  · rfl
  · rw [hlen]
    exact hruns.trans_lt maxRuns.toNat_lt

theorem verify_of_skewed {pre post : List SegmentSpec} {spec : SegmentSpec} {at_ : UInt64}
    (hsplit : specs = pre ++ spec :: post) (hclean : ∀ other ∈ pre, other.skewAt = none)
    (hskew : spec.skewAt = some at_)
    (hfree : CollisionFree blake3 (spec.seed blake3) spec.endIcount.toNat spec.timeline
      (spec.recorded at_))
    (hchange : fnvFold (register (before at_.toNat spec.timeline)) skewFold ≠
      register (before at_.toNat spec.timeline)) :
    ∃ firstBad edge expected actual s',
      verify root edges (cleanStart blake3 maxRuns) =
        (.ok (.diverged firstBad edge expected actual), s') ∧
      firstBad.toNat = pre.length + 1 ∧ s'.hv.runs = pre.length + 1 ∧
      s'.budget.used = pre.length + 1 := by
  have hstart := walked_start hpath hruns
  rw [hsplit] at hstart
  obtain ⟨walked, rest, hash, s₁, ⟨hlen, hrest, henough, hs⟩, hedges, hloop⟩ := hstart.run hclean
  obtain ⟨edge, rest', bytes, expected, rfl, hbase, -, hhash, hw, -⟩ := hrest.uncons
  rw [List.nil_append] at hlen henough hs hedges hloop
  rw [List.length_cons] at henough
  have hlt : s₁.budget.used < s₁.budget.maxRuns := by
    rw [hs.used]
    omega
  obtain ⟨d, events, hdiverges⟩ := verifySegment_skewed hw
    { bisectOnDivergence := false, segmentIndex := segIdx walked.length } hlt hs.defect hskew
    hfree hchange rfl
  obtain ⟨result, s', hcall, -, hstop⟩ := verifyLoop_cons root walked rest' hash hhash s₁
  rw [← hbase, hdiverges] at hcall
  obtain ⟨rfl, hs'⟩ := Prod.mk.inj hcall
  -- a divergence stops the loop, whatever hash it carries
  have hfails : ¬Passes edge (.ok (.diverged d)) := by
    rintro ⟨hash', epochsOk, heq, -⟩
    cases heq
  have hcount : pre.length + 1 < 2 ^ 32 := by
    have hle := hruns.trans_lt maxRuns.toNat_lt
    rw [hsplit, List.length_append, List.length_cons] at hle
    omega
  have hverify : verify root edges (cleanStart blake3 maxRuns) =
      (stopVerdict root edges walked.length edge expected (.ok (.diverged d)), s') := by
    rw [← hedges] at hloop ⊢
    exact hloop.trans (hstop hfails)
  refine ⟨_, _, _, _, s', hverify, ?_, ?_, ?_⟩
  · rw [segIdx, hlen, UInt32.toNat_ofNat_of_lt' hcount]
  · rw [← hs', ← hs.runs]
    rfl
  · rw [← hs', ← hs.used]
    rfl

end Path

/-- Recording and replay agree: a path of recordings is verified, one run and
one round of events a segment, and one with a skewed recording in it diverges
there, after as many runs. -/
theorem verify_of_recorded (blake3 : Bytes → Bytes32) {root : PathNode} {specs : List SegmentSpec}
    {edges : List Edge} {maxRuns : UInt32}
    (hpath : RecordedPath blake3 root.snapshotRef specs edges) (hne : specs ≠ [])
    (hruns : specs.length ≤ maxRuns.toNat) :
    ((∀ spec ∈ specs, spec.skewAt = none) → ∃ last bytes hash count s',
      specs.getLast? = some last ∧
      (writeSegment blake3 last : Outcome Empty _) = .ok (bytes, hash) ∧
      verify root edges (cleanStart blake3 maxRuns) = (.ok (.verified hash count), s') ∧
      count.toNat = specs.length ∧ s'.hv.runs = specs.length ∧ s'.budget.used = specs.length ∧
      s'.events = pathEvents specs) ∧
    ∀ {pre post : List SegmentSpec} {spec : SegmentSpec} {at_ : UInt64},
      specs = pre ++ spec :: post → (∀ other ∈ pre ++ post, other.skewAt = none) →
      spec.skewAt = some at_ →
      CollisionFree blake3 (spec.seed blake3) spec.endIcount.toNat spec.timeline
        (spec.recorded at_) →
      fnvFold (register (before at_.toNat spec.timeline)) skewFold ≠
        register (before at_.toNat spec.timeline) →
      ∃ firstBad edge expected actual s',
        verify root edges (cleanStart blake3 maxRuns) =
          (.ok (.diverged firstBad edge expected actual), s') ∧
        firstBad.toNat = pre.length + 1 ∧ s'.hv.runs = pre.length + 1 ∧
        s'.budget.used = pre.length + 1 := by
  refine ⟨verify_of_clean hpath hruns hne, ?_⟩
  intro pre post spec at_ hsplit hclean hskew hfree hchange
  have hbefore : ∀ other ∈ pre, other.skewAt = none := fun other hother =>
    hclean other (List.mem_append_left _ hother)
  exact verify_of_skewed hpath hruns hsplit hbefore hskew hfree hchange

def pathRoot : PathNode := { bareRoot with snapshotRef := Bytes32.fill 5 }

/-- A first segment with an epoch in it, and events at the boundary. -/
def leadIn : SegmentSpec :=
  { crowdedScript with
    baseSnapshotId := Bytes32.fill 5
    endSnapshotId := Bytes32.fill 1
    skewAt := none }

theorem writable_leadIn : Writable leadIn :=
  { writable_crowdedScript with skew_le := by simp [leadIn] }

theorem writable_oneEvent : Writable (oneEvent 3 2) where
  sorted := by decide
  events_le := by decide
  frames_le := by decide
  skew_le := by
    rintro _ ⟨⟩
    decide
  fits := by decide
  clockDen_ne := by decide
  endVns_lt := by decide

theorem writable_steadyEvent : Writable steadyEvent :=
  { writable_oneEvent with skew_le := by simp [steadyEvent] }

theorem exists_leadInPath {spec : SegmentSpec} (hw : Writable spec) (hbounded : spec.Bounded)
    (hcount : spec.recordCount < 2 ^ 32) (hbase : spec.baseSnapshotId = leadIn.endSnapshotId) :
    ∃ edges, RecordedPath Blake3.hash pathRoot.snapshotRef [leadIn, spec] edges := by
  have hboth : ∀ {P : SegmentSpec → Prop}, P leadIn → P spec → ∀ q ∈ [leadIn, spec], P q := by
    intro P hfirst hsecond q hq
    rcases List.mem_pair.mp hq with rfl | rfl
    · exact hfirst
    · exact hsecond
  apply exists_recordedPath Blake3.hash
  · exact hboth writable_leadIn hw
  · exact hboth (bounded_of_lt (by decide)) hbounded
  · exact hboth (by decide) hcount
  · exact ⟨rfl, hbase, trivial⟩

theorem verify_of_recorded_leadIn :
    (∃ edges hash count s', verify pathRoot edges (cleanStart Blake3.hash 2) =
        (.ok (.verified hash count), s') ∧ count.toNat = 2 ∧ s'.hv.runs = 2 ∧
      s'.events = pathEvents [leadIn, steadyEvent]) ∧
    ∃ edges firstBad edge expected actual s', verify pathRoot edges (cleanStart Blake3.hash 2) =
        (.ok (.diverged firstBad edge expected actual), s') ∧ firstBad.toNat = 2 ∧
      s'.hv.runs = 2 := by
  have htwo : 2 ≤ (2 : UInt32).toNat := by decide
  constructor
  · obtain ⟨edges, hpath⟩ := exists_leadInPath writable_steadyEvent (bounded_of_lt (by decide))
      (by decide) rfl
    have hclean : ∀ spec ∈ [leadIn, steadyEvent], spec.skewAt = none := by decide
    obtain ⟨last, bytes, hash, count, s', -, -, hverify, hcount, hruns, -, hevents⟩ :=
      (verify_of_recorded Blake3.hash hpath (by simp) htwo).1 hclean
    exact ⟨edges, hash, count, s', hverify, hcount, hruns, hevents⟩
  · obtain ⟨edges, hpath⟩ := exists_leadInPath writable_oneEvent (bounded_of_lt (by decide))
      (by decide) rfl
    have hsplit : [leadIn, oneEvent 3 2] = [leadIn] ++ oneEvent 3 2 :: [] := rfl
    have hclean : ∀ spec ∈ [leadIn] ++ [], spec.skewAt = none := by decide
    obtain ⟨firstBad, edge, expected, actual, s', hverify, hfirst, hruns, -⟩ :=
      (verify_of_recorded Blake3.hash hpath (by simp) htwo).2 hsplit hclean rfl
        collisionFree_oneEvent skewFold_oneEvent
    exact ⟨edges, firstBad, edge, expected, actual, s', hverify, hfirst, hruns⟩

end ReplayRenderer
