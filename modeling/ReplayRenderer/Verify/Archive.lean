import ReplayRenderer.Splice.RoundTrip
import ReplayRenderer.Verify.Agreement

/-!
A recorded path through its archive. The segments the writer recorded pass every
rule of assembly when their rows hang together, the container comes back from its
file, and the rows rebuilt from it are a recording of the same specs. So what
verification says of the path it says of the file: a clean recording verifies to
its end, and a skew in one segment, which no rule can see, is still found in it.
-/

namespace ReplayRenderer

open Lib Lib.Outcome

def SegmentSpec.machine (spec : SegmentSpec) : Bytes32 × UInt32 × UInt32 :=
  (spec.machineConfigHash, spec.clockNum, spec.clockDen)

/-- What assembly asks of the rows of a recorded path, beyond the recording. -/
structure Archivable (root : PathNode) (specs : List SegmentSpec) (edges : List Edge) : Prop where
  nonempty : specs ≠ []
  uniform : ∀ spec ∈ specs, ∀ spec' ∈ specs, spec.machine = spec'.machine
  parents : ∀ i edge, edges[i]? = some edge →
    edge.1.parentId = some (precedingNode root edges i).nodeId
  hashes : ∀ edge ∈ edges, edge.1.attrs.stateHash ≠ some Bytes32.zero
  logIds : ∀ edge ∈ edges, edge.1.inputLogId ≠ none

/-- A container whose META record and file are within the reader's limits. -/
structure Storable (blake3 : Bytes → Bytes32) (serde : SerdeJson) (c : DilogContainer) : Prop where
  meta_lt : (c.containerMeta.canonicalBytes serde).length < 2 ^ 32
  meta_parses : serde.fromSlice (c.containerMeta.canonicalBytes serde) = .ok c.containerMeta
  file_lt : (c.write blake3 serde).length < u64Bound

section Recorded

variable {blake3 : Bytes → Bytes32} {serde : SerdeJson} {root : PathNode}
  {specs : List SegmentSpec} {edges : List Edge}

structure RecordedEdge (blake3 : Bytes → Bytes32) (before : SnapshotRef) (spec : SegmentSpec)
    (edge : Edge) (hash : Bytes32) : Prop where
  writable : Writable spec
  written : WrittenAs blake3 spec edge.2 hash
  base_eq : spec.baseSnapshotId = before
  snapshot : edge.1.snapshotRef = spec.endSnapshotId
  stateHash : edge.1.attrs.stateHash = some hash
  parsed : ∃ bytes, (writeSegment blake3 spec : Outcome Empty _) = .ok (bytes, hash) ∧
    DhilogSegment.parse bytes = .ok edge.2

theorem precedingNode_cons (edge : Edge) {i : Nat} (hi : i < edges.length + 1) :
    precedingNode root (edge :: edges) (i + 1) = precedingNode edge.1 edges i := by
  cases i with
  | zero => rfl
  | succ i =>
      have hget := List.getElem?_eq_getElem (show i < edges.length by omega)
      rw [precedingNode, precedingNode, List.getElem?_cons_succ, hget]

theorem RecordedPath.length_eq {base : SnapshotRef} (h : RecordedPath blake3 base specs edges) :
    edges.length = specs.length := by
  induction h with
  | nil => rfl
  | cons write parse base_eq snapshot stateHash rest ih =>
      rw [List.length_cons, List.length_cons, ih]

theorem RecordedPath.getElem? (h : RecordedPath blake3 root.snapshotRef specs edges) {i : Nat}
    {edge : Edge} (hi : edges[i]? = some edge) :
    ∃ spec hash, specs[i]? = some spec ∧
      RecordedEdge blake3 (precedingNode root edges i).snapshotRef spec edge hash := by
  induction specs generalizing root edges i with
  | nil =>
      cases h
      simp at hi
  | cons spec specs ih =>
      obtain ⟨first, rest, bytes, hash, rfl, hbase, hwrite, hhash, -, hrest⟩ := h.uncons
      cases i with
      | zero =>
          obtain rfl : first = edge := by simpa using hi
          refine ⟨spec, hash, rfl, ?_⟩
          cases h with
          | cons write parse base_eq snapshot stateHash rest =>
              obtain rfl := (Prod.mk.inj (Outcome.ok.inj (write.symm.trans hwrite))).2
              obtain ⟨segment, hparse, hw⟩ := writtenAs_of_writeSegment write
              obtain rfl := Outcome.ok.inj (parse.symm.trans hparse)
              exact ⟨(exists_writeSegment_iff.mp ⟨_, write⟩).1, hw, base_eq, snapshot, stateHash,
                _, write, parse⟩
      | succ i =>
          rw [List.getElem?_cons_succ] at hi
          obtain ⟨spec', hash', hspec, hedge⟩ := ih hrest hi
          refine ⟨spec', hash', by rwa [List.getElem?_cons_succ], ?_⟩
          have hlt := (List.getElem?_eq_some_iff.mp hi).1
          rwa [precedingNode_cons first (by omega)]

theorem RecordedPath.exists_row {i : Nat} {spec : SegmentSpec}
    (h : RecordedPath blake3 root.snapshotRef specs edges) (hspec : specs[i]? = some spec) :
    ∃ row hash, edges[i]? = some row ∧
      RecordedEdge blake3 (precedingNode root edges i).snapshotRef spec row hash := by
  have hlt := (List.getElem?_eq_some_iff.mp hspec).1
  rw [← h.length_eq] at hlt
  have hget := List.getElem?_eq_getElem hlt
  obtain ⟨spec', hash, hspec', hedge⟩ := h.getElem? hget
  obtain rfl := Option.some.inj (hspec.symm.trans hspec')
  exact ⟨_, hash, hget, hedge⟩

/-- A recording passes every rule. -/
theorem Archivable.passes (ha : Archivable root specs edges)
    (hpath : RecordedPath blake3 root.snapshotRef specs edges) (stage : Stage) :
    stage.Passes blake3 root edges := by
  intro i edge hi
  obtain ⟨spec, hash, hspec, hedge⟩ := hpath.getElem? hi
  have hcarries := hedge.written.carriesSpec
  have hmem := List.mem_of_getElem? hi
  have hversion : ∀ {spec : SegmentSpec} {segment : DhilogSegment} {hash : Bytes32},
      WrittenAs blake3 spec segment hash → segment.header.version = 0x0100 := by
    intro spec segment hash hw
    obtain ⟨endVns, hheader⟩ := hw.header
    rw [hheader]
    rfl
  have hfirst : ∀ first, edges.head? = some first → ∃ spec' hash', spec' ∈ specs ∧
      WrittenAs blake3 spec' first.2 hash' := by
    intro first hhead
    rw [List.head?_eq_getElem?] at hhead
    obtain ⟨spec', hash', hspec', hedge'⟩ := hpath.getElem? hhead
    exact ⟨spec', hash', List.mem_of_getElem? hspec', hedge'.written⟩
  cases stage with
  | versions =>
      refine ⟨?_, fun first hhead => ?_⟩
      · rw [hversion hedge.written]
        decide
      · obtain ⟨spec', hash', -, hw⟩ := hfirst first hhead
        rw [hversion hedge.written, hversion hw]
  | machine =>
      intro first hhead
      obtain ⟨spec', hash', hspec', hw⟩ := hfirst first hhead
      have huniform := ha.uniform spec (List.mem_of_getElem? hspec) spec' hspec'
      simp only [SegmentSpec.machine, Prod.mk.injEq] at huniform
      rw [hcarries.config, hcarries.clockNum, hcarries.clockDen, hw.carriesSpec.config,
        hw.carriesSpec.clockNum, hw.carriesSpec.clockDen, huniform.1, huniform.2.1, huniform.2.2]
      exact ⟨rfl, rfl⟩
  | adjacency =>
      refine ⟨hcarries.base.trans hedge.base_eq, fun j hj prev hprev => ?_, ha.parents i edge hi⟩
      obtain ⟨spec', hash', -, hedge'⟩ := hpath.getElem? hprev
      exact hedge'.snapshot.trans hedge'.written.carriesSpec.end_.symm
  | structural =>
      have hne : hash ≠ Bytes32.zero := by
        rintro rfl
        exact ha.hashes edge hmem hedge.stateHash
      exact (validateStructure_eq_ok blake3 edge.2).mpr
        ⟨_, hedge.written.sealedSegment hedge.writable.fits hne⟩
  | stateHashes =>
      show edge.1.attrs.stateHash ≠ none
      rw [hedge.stateHash]
      simp
  | digests =>
      show edge.1.attrs.stateHash = some edge.2.header.endStateHash
      rw [hedge.stateHash, hcarries.endStateHash]
  | logIds => exact ha.logIds edge hmem

/-- The rows rebuilt from the table are a recording of the same specs. -/
theorem RecordedPath.rebuild {base : SnapshotRef} (h : RecordedPath blake3 base specs edges)
    (parent : NodeId) :
    RecordedPath blake3 base specs (rebuildEdges parent (edges.map tableRow)) := by
  induction h generalizing parent with
  | nil => exact .nil
  | @cons base spec specs node segment edges bytes hash write parse base_eq snapshot stateHash rest
      ih =>
      obtain ⟨segment', hparse, hw⟩ := writtenAs_of_writeSegment write
      obtain rfl := Outcome.ok.inj (parse.symm.trans hparse)
      have hcarries := hw.carriesSpec
      exact .cons write parse base_eq hcarries.end_ (congrArg some hcarries.endStateHash) (ih _)

theorem RecordedPath.edges_ne_nil {base : SnapshotRef}
    (h : RecordedPath blake3 base specs edges) (hne : specs ≠ []) : edges ≠ [] := by
  rintro rfl
  exact hne (List.eq_nil_of_length_eq_zero h.length_eq.symm)

/-- What the rules pass of a recording hangs together. -/
theorem archivable_of_passes (hpath : RecordedPath blake3 root.snapshotRef specs edges)
    (hne : edges ≠ []) (hpasses : ∀ stage : Stage, stage.Passes blake3 root edges) :
    Archivable root specs edges := by
  obtain ⟨first, -, hfirst, -⟩ := exists_ends hne
  have hmachine : ∀ spec ∈ specs, spec.machine = (first.2.header.machineConfigHash,
      first.2.header.clockNum, first.2.header.clockDen) := by
    intro spec hspec
    obtain ⟨i, hi⟩ := List.getElem?_of_mem hspec
    obtain ⟨row, hash, hrow, hedge⟩ := hpath.exists_row hi
    have hcarries := hedge.written.carriesSpec
    obtain ⟨hconfig, hclock⟩ := hpasses .machine i row hrow first hfirst
    rw [SegmentSpec.machine, ← hcarries.config, ← hcarries.clockNum, ← hcarries.clockDen, hconfig,
      (Prod.mk.inj hclock).1, (Prod.mk.inj hclock).2]
  refine ⟨?_, ?_, ?_, ?_, ?_⟩
  · rintro rfl
    cases hpath
    exact hne rfl
  · intro spec hspec spec' hspec'
    rw [hmachine spec hspec, hmachine spec' hspec']
  · intro i edge hi
    exact (hpasses .adjacency i edge hi).2.2
  · intro edge hedge hzero
    obtain ⟨i, hi⟩ := List.getElem?_of_mem hedge
    obtain ⟨rs, hsealed⟩ := (validateStructure_eq_ok blake3 edge.2).mp (hpasses .structural i edge hi)
    have hdigest : edge.1.attrs.stateHash = some edge.2.header.endStateHash :=
      hpasses .digests i edge hi
    exact hsealed.hash_ne_zero (Option.some.inj (hdigest.symm.trans hzero))
  · intro edge hedge
    obtain ⟨i, hi⟩ := List.getElem?_of_mem hedge
    exact hpasses .logIds i edge hi

/-- Assembly accepts a recording exactly when its rows hang together. -/
theorem exists_assemble_iff {ctx : ContainerContext}
    (hpath : RecordedPath blake3 root.snapshotRef specs edges) :
    (∃ c, assemble blake3 root edges ctx = .ok c) ↔ Archivable root specs edges := by
  constructor
  · rintro ⟨c, hassemble⟩
    obtain ⟨hpasses, first, -, hfirst, -⟩ := assemble_eq_ok.mp hassemble
    refine archivable_of_passes hpath ?_ hpasses
    rintro rfl
    cases hfirst
  · intro ha
    obtain ⟨first, goal, hfirst, hgoal⟩ := exists_ends (hpath.edges_ne_nil ha.nonempty)
    exact ⟨_, assemble_eq_ok.mpr ⟨ha.passes hpath, first, goal, hfirst, hgoal, rfl⟩⟩

/-- The container of a recorded path is what the reader gives back. -/
theorem read_of_assemble {ctx : ContainerContext} {c : DilogContainer}
    (hpath : RecordedPath blake3 root.snapshotRef specs edges)
    (hassemble : assemble blake3 root edges ctx = .ok c) (hstored : Storable blake3 serde c)
    (hlen : specs.length < 2 ^ 32) :
    DilogContainer.read blake3 serde (c.write blake3 serde) = .ok c ∧
      c.segments = edges.map tableRow := by
  obtain ⟨hmeta, hparses, hfile⟩ := hstored
  have hvalid := valid_of_assemble hassemble (hpath.length_eq ▸ hlen) hmeta hparses
  obtain ⟨-, first, goal, -, -, rfl⟩ := assemble_eq_ok.mp hassemble
  exact ⟨DilogContainer.read_write hvalid hfile, rfl⟩

theorem archived {ctx : ContainerContext}
    (hpath : RecordedPath blake3 root.snapshotRef specs edges)
    (ha : Archivable root specs edges)
    (hstored : ∀ c, assemble blake3 root edges ctx = .ok c → Storable blake3 serde c)
    (hlen : specs.length < 2 ^ 32) :
    ∃ c, assemble blake3 root edges ctx = .ok c ∧
      DilogContainer.read blake3 serde (c.write blake3 serde) = .ok c ∧
      c.segments = edges.map tableRow := by
  obtain ⟨c, hassemble⟩ := (exists_assemble_iff hpath).mpr ha
  exact ⟨c, hassemble, read_of_assemble hpath hassemble (hstored c hassemble) hlen⟩

/-- From the recording to the file and back: assembly accepts the path exactly
when its rows hang together, the reader gives back the container, and
verification of the rows in it goes through all specs when none is skewed, and
stops at the first that is, after one run a segment. -/
theorem archive_verifies {ctx : ContainerContext} {maxRuns : UInt32}
    (hpath : RecordedPath blake3 root.snapshotRef specs edges)
    (hruns : specs.length ≤ maxRuns.toNat) :
    ((∃ c, assemble blake3 root edges ctx = .ok c) ↔ Archivable root specs edges) ∧
    ∀ c, assemble blake3 root edges ctx = .ok c → Storable blake3 serde c →
      DilogContainer.read blake3 serde (c.write blake3 serde) = .ok c ∧
      ((∀ spec ∈ specs, spec.skewAt = none) → ∃ hash count s',
        verify root (rebuildEdges root.nodeId c.segments) (cleanStart blake3 maxRuns) =
          (.ok (.verified hash count), s') ∧
        count.toNat = specs.length ∧ s'.hv.runs = specs.length ∧
        s'.budget.used = specs.length ∧ s'.events = pathEvents specs) ∧
      ∀ pre spec post at_, specs = pre ++ spec :: post →
        (∀ other ∈ pre, other.skewAt = none) → spec.skewAt = some at_ →
        CollisionFree blake3 (spec.seed blake3) spec.endIcount.toNat spec.timeline
          (spec.recorded at_) →
        fnvFold (register (before at_.toNat spec.timeline)) skewFold ≠
          register (before at_.toNat spec.timeline) →
        ∃ firstBad edge expected actual s',
          verify root (rebuildEdges root.nodeId c.segments) (cleanStart blake3 maxRuns) =
            (.ok (.diverged firstBad edge expected actual), s') ∧
          firstBad.toNat = pre.length + 1 ∧ s'.hv.runs = pre.length + 1 ∧
          s'.budget.used = pre.length + 1 := by
  refine ⟨exists_assemble_iff hpath, fun c hassemble hstored => ?_⟩
  have ha := (exists_assemble_iff hpath).mp ⟨c, hassemble⟩
  obtain ⟨hread, hsegments⟩ :=
    read_of_assemble hpath hassemble hstored (hruns.trans_lt maxRuns.toNat_lt)
  have hrebuilt := hpath.rebuild root.nodeId
  rw [← hsegments] at hrebuilt
  refine ⟨hread, fun hclean => ?_, ?_⟩
  · obtain ⟨-, -, hash, count, s', -, -, hverified⟩ :=
      verify_of_clean hrebuilt hruns ha.nonempty hclean
    exact ⟨hash, count, s', hverified⟩
  · intro pre spec post at_ hsplit hclean hskew hfree hchange
    exact verify_of_skewed hrebuilt hruns hsplit hclean hskew hfree hchange

end Recorded

theorem blobsLen_le {segs : List ContainerSegment}
    (hsmall : ∀ seg ∈ segs, seg.blob.bytes.length < 2 ^ 20) :
    blobsLen segs ≤ segs.length * 2 ^ 21 := by
  induction segs with
  | nil => simp
  | cons seg segs ih =>
      have hseg := hsmall seg (List.mem_cons_self ..)
      have hrest := ih fun other hother => hsmall other (List.mem_cons_of_mem _ hother)
      have hpad : pad8 seg.blob.bytes.length ≤ seg.blob.bytes.length + 8 := by
        unfold pad8
        omega
      rw [blobsLen_cons, List.length_cons]
      omega

/-- A path of small segments to node 1, which is the goal that `bareSerde` prints. -/
theorem storable_bare {root : PathNode} {edges : List Edge} {c : DilogContainer}
    (hc : assemble Blake3.hash root edges bareContext = .ok c)
    (hgoal : ∀ goal ∈ edges.getLast?, goal.1.nodeId = 1) (hlen : edges.length < 2 ^ 20)
    (hsmall : ∀ edge ∈ edges, edge.2.bytes.length < 2 ^ 20) :
    Storable Blake3.hash bareSerde c := by
  obtain ⟨-, first, goal, -, hlast, rfl⟩ := assemble_eq_ok.mp hc
  have hmeta : (assembled root edges bareContext first goal).containerMeta =
      bareContainer.containerMeta := by
    simp only [assembled, hgoal goal hlast]
    rfl
  have hnames := plainSerde_toString bareContainer.containerMeta
  refine ⟨?_, ?_, ?_⟩
  · rw [hmeta]
    exact lt_of_eq_of_lt bareMeta_length (by norm_num)
  · rw [hmeta, ContainerMeta.canonicalBytes, bareSerde, ContainerMeta.canonicalJson_eq hnames]
    exact plainSerde_fromSlice bareContainer.containerMeta
  · have hblobs : blobsLen (assembled root edges bareContext first goal).segments ≤
        edges.length * 2 ^ 21 := by
      rw [← List.length_map (f := tableRow)]
      apply blobsLen_le
      intro seg hseg
      obtain ⟨edge, hedge, rfl⟩ := List.mem_map.mp hseg
      exact hsmall edge hedge
    have hmetaPad : pad8 185 = 192 := rfl
    rw [DilogContainer.length_write, DilogContainer.length_body, DilogContainer.blobsOff,
      DilogContainer.tableOff, hmeta, bareMeta_length, hmetaPad]
    simp only [assembled, List.length_map, headerLen, tableEntryLen, footerLen, u64Bound]
      at hblobs ⊢
    omega

theorem written_leadIn :
    isOkAnd (fun written => written.2 ≠ Bytes32.zero ∧ written.1.length < 2 ^ 20)
      (writeSegment Blake3.hash leadIn : Outcome Empty _) = true := by
  decide +kernel

def archivedEdge (node parent : NodeId) (spec : SegmentSpec) (segment : DhilogSegment)
    (hash : Bytes32) : Edge :=
  ({ nodeId := node
     parentId := some parent
     snapshotRef := spec.endSnapshotId
     inputLogId := some (Bytes32.fill 5)
     attrs := ⟨some hash⟩ }, segment)

theorem exists_archivedEdge {spec : SegmentSpec}
    (hwritten : isOkAnd (fun written => written.2 ≠ Bytes32.zero ∧ written.1.length < 2 ^ 20)
      (writeSegment Blake3.hash spec : Outcome Empty _) = true) (node parent : NodeId) :
    ∃ segment hash, segment.bytes.length < 2 ^ 20 ∧ hash ≠ Bytes32.zero ∧
      ∀ {specs : List SegmentSpec} {edges : List Edge},
        RecordedPath Blake3.hash spec.endSnapshotId specs edges →
          RecordedPath Blake3.hash spec.baseSnapshotId (spec :: specs)
            (archivedEdge node parent spec segment hash :: edges) := by
  obtain ⟨⟨bytes, hash⟩, hwrite, hbounds⟩ := isOkAnd_iff.mp hwritten
  obtain ⟨hne, hsize⟩ : hash ≠ Bytes32.zero ∧ bytes.length < 2 ^ 20 := of_decide_eq_true hbounds
  obtain ⟨segment, hparse, -⟩ := writtenAs_of_writeSegment hwrite
  have hbytes : segment.bytes = bytes := DhilogSegment.parse_eq_ok.mp hparse
  exact ⟨segment, hash, hbytes ▸ hsize, hne, fun hrest => .cons hwrite hparse rfl rfl rfl hrest⟩

theorem exists_archivable_leadIn :
    ∃ edges, RecordedPath Blake3.hash pathRoot.snapshotRef [leadIn] edges ∧
      Archivable pathRoot [leadIn] edges ∧
      ∀ c, assemble Blake3.hash pathRoot edges bareContext = .ok c →
        Storable Blake3.hash bareSerde c := by
  obtain ⟨segment, hash, hsize, hne, hpath⟩ :=
    exists_archivedEdge written_leadIn 1 pathRoot.nodeId
  refine ⟨_, hpath .nil, ?_, fun c hc => ?_⟩
  · refine ⟨by simp, by simp, ?_, by simpa [archivedEdge] using hne, by simp [archivedEdge]⟩
    intro i edge hi
    cases i with
    | zero =>
        obtain rfl := Option.some.inj hi
        rfl
    | succ i => simp at hi
  · exact storable_bare hc (by simp [archivedEdge]) (by simp) (by simpa [archivedEdge] using hsize)

theorem exists_archivable_threeEpochs :
    ∃ edges, RecordedPath Blake3.hash pathRoot.snapshotRef [leadIn, threeEpochs] edges ∧
      Archivable pathRoot [leadIn, threeEpochs] edges ∧
      ∀ c, assemble Blake3.hash pathRoot edges bareContext = .ok c →
        Storable Blake3.hash bareSerde c := by
  obtain ⟨segment, hash, hsize, hne, hpath⟩ :=
    exists_archivedEdge written_leadIn 3 pathRoot.nodeId
  obtain ⟨segment', hash', hsize', hne', hpath'⟩ := exists_archivedEdge written_threeEpochs 1 3
  refine ⟨_, hpath (hpath' .nil), ?_, fun c hc => ?_⟩
  · refine ⟨by simp, ?_, ?_, by simpa [archivedEdge] using ⟨hne, hne'⟩, by simp [archivedEdge]⟩
    · have hmachine : leadIn.machine = threeEpochs.machine := rfl
      simp [hmachine]
    · intro i edge hi
      match i with
      | 0 =>
          obtain rfl := Option.some.inj hi
          rfl
      | 1 =>
          obtain rfl := Option.some.inj hi
          rfl
      | i + 2 => simp at hi
  · apply storable_bare hc
    · simp [archivedEdge]
    · simp
    · simpa [archivedEdge] using ⟨hsize, hsize'⟩

/-- A clean path of one segment, and one whose second is skewed in its last
epoch. -/
theorem archive_verifies_leadIn_threeEpochs :
    (∃ edges c, assemble Blake3.hash pathRoot edges bareContext = .ok c ∧
      DilogContainer.read Blake3.hash bareSerde (c.write Blake3.hash bareSerde) = .ok c ∧
      ∃ hash count s', verify pathRoot (rebuildEdges pathRoot.nodeId c.segments)
          (cleanStart Blake3.hash 1) = (.ok (.verified hash count), s') ∧
        count.toNat = 1 ∧ s'.hv.runs = 1 ∧ s'.budget.used = 1 ∧
        s'.events = pathEvents [leadIn]) ∧
    ∃ edges c, assemble Blake3.hash pathRoot edges bareContext = .ok c ∧
      DilogContainer.read Blake3.hash bareSerde (c.write Blake3.hash bareSerde) = .ok c ∧
      ∃ firstBad edge expected actual s', verify pathRoot (rebuildEdges pathRoot.nodeId c.segments)
          (cleanStart Blake3.hash 2) = (.ok (.diverged firstBad edge expected actual), s') ∧
        firstBad.toNat = 2 ∧ s'.hv.runs = 2 ∧ s'.budget.used = 2 := by
  constructor
  · obtain ⟨edges, hpath, harchivable, hstored⟩ := exists_archivable_leadIn
    obtain ⟨hiff, hfile⟩ := @archive_verifies _ bareSerde _ _ _ bareContext _ hpath
      (show [leadIn].length ≤ (1 : UInt32).toNat by decide)
    obtain ⟨c, hassemble⟩ := hiff.mpr harchivable
    obtain ⟨hread, hverified, -⟩ := hfile c hassemble (hstored c hassemble)
    exact ⟨edges, c, hassemble, hread, hverified (by simp [leadIn])⟩
  · obtain ⟨edges, hpath, harchivable, hstored⟩ := exists_archivable_threeEpochs
    obtain ⟨hiff, hfile⟩ := @archive_verifies _ bareSerde _ _ _ bareContext _ hpath
      (show [leadIn, threeEpochs].length ≤ (2 : UInt32).toNat by decide)
    obtain ⟨c, hassemble⟩ := hiff.mpr harchivable
    obtain ⟨hread, -, hdiverged⟩ := hfile c hassemble (hstored c hassemble)
    exact ⟨edges, c, hassemble, hread, hdiverged [leadIn] threeEpochs [] 12286 rfl
      (by simp [leadIn]) rfl collisionFree_threeEpochs skewFold_threeEpochs⟩

end ReplayRenderer
