import ReplayRenderer.Splice.Assembly

/-!
Assembly, writer and reader together. A container assembled from a path is
valid, so it is read back from its file; a container read from any file is
valid, so the path rows rebuilt from it are accepted by assembly again.
-/

namespace ReplayRenderer

open Lib Lib.Outcome

/-! ### META -/

/-- The META record as JSON, its members in the order the struct lists
them. -/
def ContainerMeta.json (m : ContainerMeta) : Json :=
  .obj [("version", .num m.version.toNat), ("experiment_id", .str m.experimentId),
    ("goal_node_id", .num m.goalNodeId.toNat),
    ("determinism_class", .obj [("cpu_model", .str m.determinismClass.cpuModel),
      ("microcode", .str m.determinismClass.microcode),
      ("host_kernel", .str m.determinismClass.hostKernel),
      ("vmm_version", .str m.determinismClass.vmmVersion)]),
    ("producer", .str m.producer)]

def ContainerMeta.fieldNames : List String :=
  ["version", "experiment_id", "goal_node_id", "determinism_class", "cpu_model", "microcode",
    "host_kernel", "vmm_version", "producer"]

/-- The hand-written format string is the compact rendering of the record,
since no member name needs an escape. -/
theorem ContainerMeta.canonicalJson_eq {serde : SerdeJson}
    (hnames : ∀ name ∈ ContainerMeta.fieldNames,
      serde.toString name = "\"" ++ name ++ "\"") (m : ContainerMeta) :
    m.canonicalJson serde = m.json.compact serde.toString := by
  simp only [ContainerMeta.fieldNames, List.forall_mem_cons, String.reduceAppend] at hnames
  obtain ⟨hversion, hexperiment, hgoal, hclass, hcpu, hmicrocode, hkernel, hvmm, hproducer, -⟩ :=
    hnames
  -- the literals of the format string, cut where the renderer joins
  have hlit₁ : "\x7b\"version\":" = "\x7b" ++ ("\"version\"" ++ ":") := rfl
  have hlit₂ : ",\"experiment_id\":" = "," ++ ("\"experiment_id\"" ++ ":") := rfl
  have hlit₃ : ",\"goal_node_id\":" = "," ++ ("\"goal_node_id\"" ++ ":") := rfl
  have hlit₄ : ",\"determinism_class\":\x7b\"cpu_model\":" =
    "," ++ ("\"determinism_class\"" ++ (":" ++ ("\x7b" ++ ("\"cpu_model\"" ++ ":")))) := rfl
  have hlit₅ : ",\"microcode\":" = "," ++ ("\"microcode\"" ++ ":") := rfl
  have hlit₆ : ",\"host_kernel\":" = "," ++ ("\"host_kernel\"" ++ ":") := rfl
  have hlit₇ : ",\"vmm_version\":" = "," ++ ("\"vmm_version\"" ++ ":") := rfl
  have hlit₈ : "\x7d,\"producer\":" = "\x7d" ++ ("," ++ ("\"producer\"" ++ ":")) := rfl
  delta ContainerMeta.canonicalJson
  rw [hlit₁, hlit₂, hlit₃, hlit₄, hlit₅, hlit₆, hlit₇, hlit₈]
  simp only [ContainerMeta.json, Json.compact, Json.compactFields, hversion, hexperiment, hgoal,
    hclass, hcpu, hmicrocode, hkernel, hvmm, hproducer, String.append_assoc,
    -String.reduceAppend]

/-! ### Encoding an assembled container -/

theorem chainsFrom_iff {base : Bytes32} {segs : List ContainerSegment} :
    ChainsFrom base segs ↔
      (∀ seg, segs[0]? = some seg → seg.baseSnapshotRef = base) ∧
        ∀ (j : Nat) (prev seg : ContainerSegment), segs[j]? = some prev →
          segs[j + 1]? = some seg → seg.baseSnapshotRef = prev.childSnapshotRef := by
  induction segs generalizing base with
  | nil => simp [ChainsFrom]
  | cons first segs ih =>
      rw [ChainsFrom, ih]
      constructor
      · rintro ⟨hbase, hhead, htail⟩
        refine ⟨by simpa using hbase, ?_⟩
        intro j prev seg hprev hseg
        cases j with
        | zero =>
            obtain rfl : first = prev := by simpa using hprev
            exact hhead seg (by simpa using hseg)
        | succ j => exact htail j prev seg (by simpa using hprev) (by simpa using hseg)
      · rintro ⟨hhead, htail⟩
        refine ⟨hhead first rfl, ?_, ?_⟩
        · intro seg hseg
          exact htail 0 first seg rfl (by simpa using hseg)
        · intro j prev seg hprev hseg
          exact htail (j + 1) prev seg (by simpa using hprev) (by simpa using hseg)

section RoundTrip

variable {blake3 : Bytes → Bytes32} {serde : SerdeJson}

/-- Every check of the reader holds of what assembly produces. -/
theorem valid_of_assemble {root : PathNode} {edges : List Edge} {ctx : ContainerContext}
    {c : DilogContainer} (hc : assemble blake3 root edges ctx = .ok c)
    (hcount : edges.length < 2 ^ 32)
    (hmeta : (c.containerMeta.canonicalBytes serde).length < 2 ^ 32)
    (hparses : serde.fromSlice (c.containerMeta.canonicalBytes serde) = .ok c.containerMeta) :
    c.Valid blake3 serde := by
  obtain ⟨hpass, first, goal, hfirst, -, rfl⟩ := assemble_eq_ok.mp hc
  refine ⟨?_, ?_, rfl, hparses, hmeta, ?_, ?_, ?_⟩
  · intro hnil
    have hedges : edges = [] := List.map_eq_nil_iff.mp hnil
    rw [hedges] at hfirst
    simp at hfirst
  · simpa [assembled] using hcount
  · intro seg hseg
    obtain ⟨edge, hedge, rfl⟩ := List.mem_map.mp hseg
    obtain ⟨i, hi⟩ := List.mem_iff_getElem?.mp hedge
    obtain ⟨hconfig, hclock⟩ := hpass .machine i edge hi first hfirst
    exact ⟨(hpass .versions i edge hi).1, hpass .structural i edge hi, rfl, rfl, rfl, hconfig,
      hclock⟩
  · simp only [chainsFrom_iff, assembled, List.getElem?_map, Option.map_eq_some_iff]
    constructor
    · rintro seg ⟨edge, hi, rfl⟩
      exact (hpass .adjacency 0 edge hi).1
    · rintro j prev seg ⟨prevEdge, hj, rfl⟩ ⟨edge, hi, rfl⟩
      have hadj := hpass .adjacency (j + 1) edge hi
      have hbase : edge.2.header.baseSnapshotId = prevEdge.1.snapshotRef := by
        rw [hadj.1]
        simp [precedingNode, hj]
      exact hbase.trans (hadj.2.1 j rfl prevEdge hj)
  · simp only [assembled, List.all_map]
    rfl

/-- Where the table of a written file puts a segment, and that the segment's
bytes are there. -/
def BlobInPlace (file : Bytes) (entryOff : Nat) (blob : Bytes) : Prop :=
  ∃ blobOffset blobLen : UInt64, SitsAt file (entryOff + 136) (le64 blobOffset) ∧
    SitsAt file (entryOff + 144) (le64 blobLen) ∧ blobLen.toNat = blob.length ∧
      SitsAt file blobOffset.toNat blob

theorem blobInPlace_of_sitsAt {file : Bytes} {tableOff off i : Nat}
    {segs : List ContainerSegment} {seg : ContainerSegment}
    (hfile : file.length < u64Bound) (htable : SitsAt file tableOff (tableBytes off segs))
    (hblobs : SitsAt file off (blobsBytes segs)) (hi : segs[i]? = some seg) :
    BlobInPlace file (tableOff + i * tableEntryLen) seg.blob.bytes := by
  induction segs generalizing tableOff off i with
  | nil => simp at hi
  | cons first segs ih =>
      rw [tableBytes, sitsAt_append, length_tableEntry] at htable
      rw [blobsBytes, List.flatMap_cons, sitsAt_append, length_paddedBlob] at hblobs
      cases i with
      | succ i =>
          have hrest := ih htable.2 hblobs.2 (by simpa using hi)
          rw [show tableOff + (i + 1) * tableEntryLen =
            tableOff + tableEntryLen + i * tableEntryLen by ring]
          exact hrest
      | zero =>
          obtain rfl : first = seg := by simpa using hi
          obtain ⟨-, -, -, -, -, hoffset, hlen⟩ := sitsAt_tableEntry.mp
            (sitsAt_self (tableEntry off first))
          have hblob := (sitsAt_append.mp hblobs.1).1
          have hend := hblob.le_length
          have hoffNat : (UInt64.ofNat off).toNat = off :=
            UInt64.toNat_ofNat_of_lt' (show off < u64Bound by omega)
          have hlenNat : (UInt64.ofNat first.blob.bytes.length).toNat =
              first.blob.bytes.length :=
            UInt64.toNat_ofNat_of_lt' (show first.blob.bytes.length < u64Bound by omega)
          rw [Nat.zero_mul, Nat.add_zero]
          exact ⟨_, _, htable.1.trans hoffset, htable.1.trans hlen, hlenNat,
            by rw [hoffNat]; exact hblob⟩

/-- A container assembled from a path is read back from its file as it is,
with every segment the bytes that went in, where the table says they are.
The parser is only asked to read back the JSON that the same library would
have written for this META record. -/
theorem read_write_of_assemble {root : PathNode} {edges : List Edge} {ctx : ContainerContext}
    {c : DilogContainer} (hc : assemble blake3 root edges ctx = .ok c)
    (hcount : edges.length < 2 ^ 32)
    (hmeta : (c.containerMeta.canonicalBytes serde).length < 2 ^ 32)
    (hfits : (c.write blake3 serde).length < u64Bound)
    (hnames : ∀ name ∈ ContainerMeta.fieldNames, serde.toString name = "\"" ++ name ++ "\"")
    (hserde : serde.fromSlice (utf8 (c.containerMeta.json.compact serde.toString)) =
      .ok c.containerMeta) :
    DilogContainer.read blake3 serde (c.write blake3 serde) = .ok c ∧
      c.segments.length = edges.length ∧
      ∀ (i : Nat) (edge : Edge), edges[i]? = some edge →
        ∃ seg, c.segments[i]? = some seg ∧ seg.blob = edge.2 ∧
          seg.blob.bytes = edge.2.bytes ∧
          BlobInPlace (c.write blake3 serde) (c.tableOff serde + i * tableEntryLen)
            edge.2.bytes := by
  have hparses : serde.fromSlice (c.containerMeta.canonicalBytes serde) =
      .ok c.containerMeta := by
    rw [ContainerMeta.canonicalBytes, ContainerMeta.canonicalJson_eq hnames]
    exact hserde
  have hvalid := valid_of_assemble hc hcount hmeta hparses
  refine ⟨DilogContainer.read_write hvalid hfits, ?_⟩
  obtain ⟨-, -, -, htable, hblobs⟩ :=
    (DilogContainer.sitsAt_body serde).mp (c.sitsAt_write blake3 serde).1
  obtain ⟨-, first, goal, -, -, rfl⟩ := assemble_eq_ok.mp hc
  refine ⟨by simp [assembled], ?_⟩
  intro i edge hi
  have hrow : (assembled root edges ctx first goal).segments[i]? = some (tableRow edge) := by
    simp [assembled, hi]
  exact ⟨tableRow edge, hrow, rfl, rfl, blobInPlace_of_sitsAt hfits htable hblobs hrow⟩

/-- An accepted file is the canonical encoding of the container it decodes
to; no other string decodes to the same container. -/
theorem write_of_read {b : Bytes} {c : DilogContainer}
    (h : DilogContainer.read blake3 serde b = .ok c) :
    c.write blake3 serde = b ∧
      ∀ b', DilogContainer.read blake3 serde b' = .ok c → b' = b := by
  have hb := (DilogContainer.read_sound h).2
  refine ⟨hb.symm, ?_⟩
  intro b' h'
  rw [hb]
  exact (DilogContainer.read_sound h').2

/-! ### From a container back to a path -/

def rebuildEdge (parent : NodeId) (seg : ContainerSegment) : Edge :=
  ({ nodeId := seg.nodeId
     parentId := some parent
     snapshotRef := seg.childSnapshotRef
     inputLogId := some seg.logId
     attrs := ⟨some seg.endStateHash⟩ }, seg.blob)

/-- The path rows of a table, each under the node of the row before it. -/
def rebuildEdges : NodeId → List ContainerSegment → List Edge
  | _, [] => []
  | parent, seg :: segs => rebuildEdge parent seg :: rebuildEdges seg.nodeId segs

theorem getElem?_rebuildEdges {parent : NodeId} {segs : List ContainerSegment} {i : Nat}
    {edge : Edge} (h : (rebuildEdges parent segs)[i]? = some edge) :
    ∃ seg prev, segs[i]? = some seg ∧ edge = rebuildEdge prev seg ∧
      (i = 0 → prev = parent) ∧
      ∀ j, i = j + 1 → ∃ seg' prev', segs[j]? = some seg' ∧ prev = seg'.nodeId ∧
        (rebuildEdges parent segs)[j]? = some (rebuildEdge prev' seg') := by
  induction segs generalizing parent i with
  | nil => simp [rebuildEdges] at h
  | cons first segs ih =>
      cases i with
      | zero =>
          obtain rfl : rebuildEdge parent first = edge := by simpa [rebuildEdges] using h
          exact ⟨first, parent, rfl, rfl, fun _ => rfl, by simp⟩
      | succ i =>
          obtain ⟨seg, prev, hseg, rfl, hzero, hsucc⟩ := ih (by simpa [rebuildEdges] using h)
          refine ⟨seg, prev, by simpa using hseg, rfl, by simp, ?_⟩
          intro j hj
          obtain rfl : i = j := by omega
          cases i with
          | zero => exact ⟨first, parent, rfl, hzero rfl, rfl⟩
          | succ i =>
              obtain ⟨seg', prev', hseg', hprev, hrow⟩ := hsucc i rfl
              exact ⟨seg', prev', by simpa using hseg', hprev, by simpa [rebuildEdges] using hrow⟩

theorem map_tableRow_rebuildEdges (parent : NodeId) (segs : List ContainerSegment)
    (hagrees : ∀ seg ∈ segs, seg.baseSnapshotRef = seg.blob.header.baseSnapshotId ∧
      seg.childSnapshotRef = seg.blob.header.endSnapshotId ∧
      seg.endStateHash = seg.blob.header.endStateHash) :
    (rebuildEdges parent segs).map tableRow = segs := by
  induction segs generalizing parent with
  | nil => rfl
  | cons seg segs ih =>
      obtain ⟨hbase, hchild, hhash⟩ := hagrees seg List.mem_cons_self
      rw [rebuildEdges, List.map_cons, ih _ fun s hs => hagrees s (List.mem_cons_of_mem _ hs)]
      congr 1
      cases seg
      simp_all [tableRow, rebuildEdge]

/-- The rows rebuilt from a valid container pass every rule. -/
theorem passes_rebuildEdges {c : DilogContainer} (hv : c.Valid blake3 serde) {root : PathNode}
    (hroot : root.snapshotRef = c.rootSnapshotRef) (stage : Stage) :
    stage.Passes blake3 root (rebuildEdges root.nodeId c.segments) := by
  obtain ⟨hhead, hnext⟩ := chainsFrom_iff.mp hv.chains
  intro i edge hi
  obtain ⟨seg, prev, hseg, rfl, hzero, hsucc⟩ := getElem?_rebuildEdges hi
  have hagrees := hv.agrees seg (List.mem_of_getElem? hseg)
  have hfirst : ∀ first, (rebuildEdges root.nodeId c.segments).head? = some first →
      first.2.header.version ∈ supportedDhilogVersions ∧
        first.2.header.machineConfigHash = c.machineConfigHash ∧
        (first.2.header.clockNum, first.2.header.clockDen) = (c.clockNum, c.clockDen) := by
    intro first hf
    rw [List.head?_eq_getElem?] at hf
    obtain ⟨seg', prev', hseg', rfl, -⟩ := getElem?_rebuildEdges hf
    have hagrees' := hv.agrees seg' (List.mem_of_getElem? hseg')
    exact ⟨hagrees'.version, hagrees'.config, hagrees'.clock⟩
  cases stage with
  | versions =>
      -- one version is supported, so all segments have the first one's
      refine ⟨hagrees.version, fun first hf => ?_⟩
      have hone : ∀ v, v ∈ supportedDhilogVersions → v = 0x0100 := by
        intro v hv
        exact List.mem_singleton.mp hv
      exact (hone _ hagrees.version).trans (hone _ (hfirst first hf).1).symm
  | machine =>
      intro first hf
      obtain ⟨-, hconfig, hclock⟩ := hfirst first hf
      exact ⟨hagrees.config.trans hconfig.symm, hagrees.clock.trans hclock.symm⟩
  | structural => exact hagrees.structural
  | stateHashes => exact Option.some_ne_none _
  | digests => exact congrArg some hagrees.hash
  | logIds => exact Option.some_ne_none _
  | adjacency =>
      cases i with
      | zero =>
          -- the first segment starts at the root, the others at the node before
          refine ⟨?_, by simp, by rw [hzero rfl]; rfl⟩
          exact hagrees.base.symm.trans ((hhead seg hseg).trans hroot.symm)
      | succ j =>
          obtain ⟨seg', prev', hseg', rfl, hrow⟩ := hsucc j rfl
          have hagrees' := hv.agrees seg' (List.mem_of_getElem? hseg')
          have hprec : precedingNode root (rebuildEdges root.nodeId c.segments) (j + 1) =
              (rebuildEdge prev' seg').1 := by
            simp [precedingNode, hrow]
          refine ⟨?_, ?_, by rw [hprec]; rfl⟩
          · rw [hprec]
            exact hagrees.base.symm.trans (hnext j seg' seg hseg' hseg)
          · intro k hk before hbefore
            obtain rfl : j = k := by omega
            obtain rfl := Option.some.inj (hrow.symm.trans hbefore)
            exact hagrees'.child

/-- Whatever the reader accepts, assembly accepts: the rows rebuilt from an
accepted container give back its table, its root, its machine, its clock and
its epoch flag. -/
theorem assemble_of_read {b : Bytes} {c : DilogContainer}
    (h : DilogContainer.read blake3 serde b = .ok c) (ctx : ContainerContext)
    {root : PathNode} (hroot : root.snapshotRef = c.rootSnapshotRef) :
    ∃ c', assemble blake3 root (rebuildEdges root.nodeId c.segments) ctx = .ok c' ∧
      c'.segments = c.segments ∧ c'.rootSnapshotRef = c.rootSnapshotRef ∧
      c'.machineConfigHash = c.machineConfigHash ∧
      (c'.clockNum, c'.clockDen) = (c.clockNum, c.clockDen) ∧
      c'.epochHashesEverywhere = c.epochHashesEverywhere := by
  have hv := (DilogContainer.read_sound h).1
  have hne : rebuildEdges root.nodeId c.segments ≠ [] := by
    cases hsegs : c.segments with
    | nil => exact absurd hsegs hv.nonempty
    | cons seg segs => simp [rebuildEdges]
  obtain ⟨first, goal, hfirst, hgoal⟩ := exists_ends hne
  have hmap := map_tableRow_rebuildEdges root.nodeId c.segments fun seg hseg => ⟨(hv.agrees seg hseg).base, (hv.agrees seg hseg).child,
      (hv.agrees seg hseg).hash⟩
  have hfirstAgrees : first.2.header.machineConfigHash = c.machineConfigHash ∧
      (first.2.header.clockNum, first.2.header.clockDen) = (c.clockNum, c.clockDen) := by
    rw [List.head?_eq_getElem?] at hfirst
    obtain ⟨seg, prev, hseg, rfl, -⟩ := getElem?_rebuildEdges hfirst
    have hagrees := hv.agrees seg (List.mem_of_getElem? hseg)
    exact ⟨hagrees.config, hagrees.clock⟩
  refine ⟨_, assemble_eq_ok.mpr ⟨passes_rebuildEdges hv hroot, first, goal, hfirst, hgoal, rfl⟩,
    hmap, hroot, hfirstAgrees.1, hfirstAgrees.2, ?_⟩
  rw [hv.epochs]
  conv_rhs => rw [← hmap, List.all_map]
  rfl

end RoundTrip

/-! ### A container on disk -/

/-- A `serde_json` for strings that need no escape and for one META record. -/
def plainSerde (m : ContainerMeta) : SerdeJson where
  toString s := "\"" ++ s ++ "\""
  fromSlice bytes :=
    if bytes = utf8 (m.json.compact fun s => "\"" ++ s ++ "\"") then .ok m
    else .error "expected value at line 1 column 1"

theorem plainSerde_toString (m : ContainerMeta) :
    ∀ name ∈ ContainerMeta.fieldNames,
      (plainSerde m).toString name = "\"" ++ name ++ "\"" :=
  fun _ _ => rfl

theorem plainSerde_fromSlice (m : ContainerMeta) :
    (plainSerde m).fromSlice (utf8 (m.json.compact (plainSerde m).toString)) = .ok m :=
  if_pos rfl

/-- The container of the one-edge path whose segment has no events. -/
def bareContainer : DilogContainer :=
  assembled bareRoot [goalEdge Blake3.hash (Bytes32.fill 2)] bareContext
    (goalEdge Blake3.hash (Bytes32.fill 2)) (goalEdge Blake3.hash (Bytes32.fill 2))

def bareSerde : SerdeJson := plainSerde bareContainer.containerMeta

theorem bareMeta_length :
    (bareContainer.containerMeta.canonicalBytes bareSerde).length = 185 := by
  decide +kernel

theorem bareBlob_length : (goalEdge Blake3.hash (Bytes32.fill 2)).2.bytes.length = 320 := by
  have hbytes : (goalEdge Blake3.hash (Bytes32.fill 2)).2.bytes =
      DhilogHeader.encode (goalEdge Blake3.hash (Bytes32.fill 2)).2.header ++
        bareEnd.encode := rfl
  rw [hbytes, List.length_append, DhilogHeader.length_encode, Record.length_encode]
  decide

theorem bareFile_length : (bareContainer.write Blake3.hash bareSerde).length = 864 := by
  have hblobs : blobsLen bareContainer.segments = 320 := by
    simp only [bareContainer, assembled, List.map_cons, List.map_nil, tableRow, blobsLen_cons,
      blobsLen_nil, bareBlob_length]
    decide
  have hcount : bareContainer.segments.length = 1 := rfl
  rw [DilogContainer.length_write, DilogContainer.length_body, DilogContainer.blobsOff,
    DilogContainer.tableOff, bareMeta_length, hblobs, hcount]
  decide

theorem read_bareFile :
    DilogContainer.read Blake3.hash bareSerde (bareContainer.write Blake3.hash bareSerde) =
      .ok bareContainer := by
  apply DilogContainer.read_write
  · apply valid_of_assemble (assemble_goalEdge Blake3.hash (Bytes32.fill 2)) (by norm_num)
    · exact lt_of_eq_of_lt bareMeta_length (by norm_num)
    · have hnames := plainSerde_toString bareContainer.containerMeta
      rw [ContainerMeta.canonicalBytes, bareSerde, ContainerMeta.canonicalJson_eq hnames]
      exact plainSerde_fromSlice bareContainer.containerMeta
  · rw [bareFile_length]
    norm_num [u64Bound]

theorem read_write_of_assemble_bare :
    DilogContainer.read Blake3.hash bareSerde (bareContainer.write Blake3.hash bareSerde) =
        .ok bareContainer ∧
      bareContainer.segments.length = [goalEdge Blake3.hash (Bytes32.fill 2)].length ∧
      ∀ (i : Nat) (edge : Edge), [goalEdge Blake3.hash (Bytes32.fill 2)][i]? = some edge →
        ∃ seg, bareContainer.segments[i]? = some seg ∧ seg.blob = edge.2 ∧
          seg.blob.bytes = edge.2.bytes ∧
          BlobInPlace (bareContainer.write Blake3.hash bareSerde)
            (bareContainer.tableOff bareSerde + i * tableEntryLen) edge.2.bytes :=
  read_write_of_assemble (assemble_goalEdge Blake3.hash (Bytes32.fill 2)) (by norm_num)
    (lt_of_eq_of_lt bareMeta_length (by norm_num))
    (lt_of_eq_of_lt bareFile_length (by norm_num [u64Bound])) (plainSerde_toString _)
    (plainSerde_fromSlice _)

/-- An accepted file of 864 bytes: no other is read as the same container. -/
theorem write_of_read_bare :
    ∃ b, b.length = 864 ∧ DilogContainer.read Blake3.hash bareSerde b = .ok bareContainer ∧
      bareContainer.write Blake3.hash bareSerde = b ∧
      ∀ b', DilogContainer.read Blake3.hash bareSerde b' = .ok bareContainer → b' = b :=
  ⟨_, bareFile_length, read_bareFile, write_of_read read_bareFile⟩

theorem assemble_of_read_bare :
    ∃ c', assemble Blake3.hash bareRoot
          (rebuildEdges bareRoot.nodeId bareContainer.segments) bareContext = .ok c' ∧
      c'.segments = bareContainer.segments ∧
      c'.rootSnapshotRef = bareContainer.rootSnapshotRef ∧
      c'.machineConfigHash = bareContainer.machineConfigHash ∧
      (c'.clockNum, c'.clockDen) = (bareContainer.clockNum, bareContainer.clockDen) ∧
      c'.epochHashesEverywhere = bareContainer.epochHashesEverywhere :=
  assemble_of_read read_bareFile bareContext rfl

end ReplayRenderer
