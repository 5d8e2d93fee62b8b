import ReplayRenderer.Splice.Container

/-!
The reader accepts exactly what the writer writes.

Both sides are brought to one description of a file: which string sits at
which offset. The writer's loops are concatenations (`write_eq`), and one
pass of the reader's loop succeeds exactly when one table entry and one
padded blob sit where the loop expects them (`readSegment_eq_ok`). What is
left is a container that has nothing to do with bytes any more: the checks
of `DilogContainer.Valid`, which `read` makes and `write` relies on.
-/

namespace ReplayRenderer

open Lib Lib.Outcome

/-! ### The pieces of a file -/

section Layout

variable (serde : SerdeJson)

def DilogContainer.cflags (c : DilogContainer) : UInt32 :=
  if c.epochHashesEverywhere then cflagEpochHashes else 0

def DilogContainer.headerFields (c : DilogContainer) : Bytes :=
  containerMagic ++ (le32 containerVersion ++ (le32 c.cflags ++
    (le32 (UInt32.ofNat c.segments.length) ++
    (le32 (UInt32.ofNat (c.containerMeta.canonicalBytes serde).length) ++
    (c.rootSnapshotRef.bytes ++ (c.guestImageId.bytes ++ (c.machineConfigHash.bytes ++
    (le32 c.clockNum ++ (le32 c.clockDen ++ (le32 c.fpsNum ++ (le32 c.fpsDen ++
    zeros 24)))))))))))

theorem DilogContainer.headerBytes_eq (c : DilogContainer) :
    c.headerBytes serde = c.headerFields serde := by
  have hzero : zeros headerLen = [] ++ zeros headerLen := rfl
  have hmagic : containerMagic.length = 8 := rfl
  rw [DilogContainer.headerBytes, hzero]
  simp (disch := simp [hmagic, headerLen]) only [copyAt_append_zeros]
  simp [DilogContainer.headerFields, DilogContainer.cflags, hmagic, headerLen]

def tableEntry (off : Nat) (seg : ContainerSegment) : Bytes :=
  le64 seg.nodeId ++ (seg.baseSnapshotRef.bytes ++ (seg.childSnapshotRef.bytes ++
    (seg.endStateHash.bytes ++ (seg.logId.bytes ++ (le64 (UInt64.ofNat off) ++
    le64 (UInt64.ofNat seg.blob.bytes.length))))))

def tableBytes (off : Nat) : List ContainerSegment → Bytes
  | [] => []
  | seg :: segs => tableEntry off seg ++ tableBytes (off + pad8 seg.blob.bytes.length) segs

def paddedBlob (seg : ContainerSegment) : Bytes :=
  seg.blob.bytes ++ zeros (pad8 seg.blob.bytes.length - seg.blob.bytes.length)

def blobsBytes (segs : List ContainerSegment) : Bytes := segs.flatMap paddedBlob

def blobsLen (segs : List ContainerSegment) : Nat :=
  (segs.map fun seg => pad8 seg.blob.bytes.length).sum

@[simp] theorem length_tableEntry (off : Nat) (seg : ContainerSegment) :
    (tableEntry off seg).length = tableEntryLen := by
  simp [tableEntry, tableEntryLen]

@[simp] theorem length_tableBytes (off : Nat) (segs : List ContainerSegment) :
    (tableBytes off segs).length = segs.length * tableEntryLen := by
  induction segs generalizing off with
  | nil => simp [tableBytes]
  | cons seg segs ih =>
      rw [tableBytes, List.length_append, length_tableEntry, ih, List.length_cons]
      ring

@[simp] theorem length_paddedBlob (seg : ContainerSegment) :
    (paddedBlob seg).length = pad8 seg.blob.bytes.length := by
  have hle := le_pad8 seg.blob.bytes.length
  rw [paddedBlob, List.length_append, length_zeros]
  omega

@[simp] theorem length_blobsBytes (segs : List ContainerSegment) :
    (blobsBytes segs).length = blobsLen segs := by
  simp [blobsBytes, blobsLen, List.length_flatMap]

@[simp] theorem blobsLen_nil : blobsLen [] = 0 := rfl

@[simp] theorem blobsLen_cons (seg : ContainerSegment) (segs : List ContainerSegment) :
    blobsLen (seg :: segs) = pad8 seg.blob.bytes.length + blobsLen segs := by
  simp [blobsLen]

theorem writeTable_eq (out : Bytes) (off : Nat) (segs : List ContainerSegment) :
    writeTable out (UInt64.ofNat off) segs = out ++ tableBytes off segs := by
  induction segs generalizing out off with
  | nil => simp [writeTable, tableBytes]
  | cons seg segs ih =>
      rw [writeTable, ← UInt64.ofNat_add, ih, tableBytes, tableEntry]
      simp only [List.append_assoc]

theorem writeBlobs_eq (out : Bytes) (segs : List ContainerSegment)
    (hout : out.length % 8 = 0) :
    writeBlobs out segs = out ++ blobsBytes segs := by
  induction segs generalizing out with
  | nil => simp [writeBlobs, blobsBytes]
  | cons seg segs ih =>
      have hle := le_pad8 seg.blob.bytes.length
      have hmod := pad8_mod seg.blob.bytes.length
      have hpad : resize (out ++ seg.blob.bytes) (pad8 (out ++ seg.blob.bytes).length) =
          out ++ paddedBlob seg := by
        rw [resize_of_le (le_pad8 _), List.length_append, pad8_add hout, paddedBlob,
          Nat.add_sub_add_left, List.append_assoc]
      have hmod' : (out ++ paddedBlob seg).length % 8 = 0 := by
        rw [List.length_append, length_paddedBlob]
        omega
      rw [writeBlobs, hpad, ih _ hmod']
      simp [blobsBytes]

def DilogContainer.tableOff (c : DilogContainer) : Nat :=
  headerLen + pad8 (c.containerMeta.canonicalBytes serde).length

def DilogContainer.blobsOff (c : DilogContainer) : Nat :=
  c.tableOff serde + c.segments.length * tableEntryLen

def DilogContainer.body (c : DilogContainer) : Bytes :=
  c.headerFields serde ++ (c.containerMeta.canonicalBytes serde ++
    (zeros (pad8 (c.containerMeta.canonicalBytes serde).length -
        (c.containerMeta.canonicalBytes serde).length) ++
    (tableBytes (c.blobsOff serde) c.segments ++ blobsBytes c.segments)))

@[simp] theorem length_containerMagic : containerMagic.length = 8 := rfl

@[simp] theorem length_endMagic : endMagic.length = 8 := rfl

@[simp] theorem DilogContainer.length_headerFields (c : DilogContainer) :
    (c.headerFields serde).length = headerLen := by
  simp [DilogContainer.headerFields, headerLen]

theorem DilogContainer.length_body (c : DilogContainer) :
    (c.body serde).length = c.blobsOff serde + blobsLen c.segments := by
  have hle := le_pad8 (c.containerMeta.canonicalBytes serde).length
  simp only [DilogContainer.body, List.length_append, length_headerFields, length_zeros,
    length_tableBytes, length_blobsBytes, DilogContainer.blobsOff, DilogContainer.tableOff]
  omega

theorem DilogContainer.blobsOff_mod (c : DilogContainer) : c.blobsOff serde % 8 = 0 := by
  have hmod := pad8_mod (c.containerMeta.canonicalBytes serde).length
  unfold DilogContainer.blobsOff DilogContainer.tableOff headerLen tableEntryLen
  omega

theorem DilogContainer.sitsAt_body {b : Bytes} {c : DilogContainer} :
    SitsAt b 0 (c.body serde) ↔
      SitsAt b 0 (c.headerFields serde) ∧
        SitsAt b headerLen (c.containerMeta.canonicalBytes serde) ∧
        SitsAt b (headerLen + (c.containerMeta.canonicalBytes serde).length)
          (zeros (pad8 (c.containerMeta.canonicalBytes serde).length -
            (c.containerMeta.canonicalBytes serde).length)) ∧
        SitsAt b (c.tableOff serde) (tableBytes (c.blobsOff serde) c.segments) ∧
        SitsAt b (c.blobsOff serde) (blobsBytes c.segments) := by
  have hle := le_pad8 (c.containerMeta.canonicalBytes serde).length
  have htable : headerLen + (c.containerMeta.canonicalBytes serde).length +
      (pad8 (c.containerMeta.canonicalBytes serde).length -
        (c.containerMeta.canonicalBytes serde).length) = c.tableOff serde := by
    unfold DilogContainer.tableOff
    omega
  rw [DilogContainer.body, sitsAt_append, sitsAt_append, sitsAt_append, sitsAt_append,
    length_headerFields, Nat.zero_add, length_zeros, htable, length_tableBytes,
    DilogContainer.blobsOff]

theorem DilogContainer.write_eq (blake3 : Bytes → Bytes32) (c : DilogContainer) :
    c.write blake3 serde =
      c.body serde ++ ((blake3 (c.body serde)).bytes ++ endMagic) := by
  have hle := le_pad8 (c.containerMeta.canonicalBytes serde).length
  have hmod := pad8_mod (c.containerMeta.canonicalBytes serde).length
  have hmeta : resize (c.headerFields serde ++ c.containerMeta.canonicalBytes serde)
      (headerLen + pad8 (c.containerMeta.canonicalBytes serde).length) =
      c.headerFields serde ++ (c.containerMeta.canonicalBytes serde ++
        zeros (pad8 (c.containerMeta.canonicalBytes serde).length -
          (c.containerMeta.canonicalBytes serde).length)) := by
    rw [resize_of_le, List.length_append, length_headerFields, Nat.add_sub_add_left,
      List.append_assoc]
    rw [List.length_append, length_headerFields]
    omega
  have hbody : writeBlobs
      (c.headerFields serde ++ (c.containerMeta.canonicalBytes serde ++
        zeros (pad8 (c.containerMeta.canonicalBytes serde).length -
          (c.containerMeta.canonicalBytes serde).length)) ++
        tableBytes (c.blobsOff serde) c.segments) c.segments = c.body serde := by
    rw [writeBlobs_eq]
    · simp only [DilogContainer.body, List.append_assoc]
    · simp only [List.length_append, length_headerFields, length_zeros, length_tableBytes]
      unfold headerLen tableEntryLen
      omega
  have hoff : headerLen + pad8 (c.containerMeta.canonicalBytes serde).length +
      c.segments.length * tableEntryLen = c.blobsOff serde := rfl
  rw [DilogContainer.write]
  simp only [DilogContainer.headerBytes_eq, hmeta, hoff, writeTable_eq, hbody]
  rw [List.append_assoc]

end Layout

/-! ### Valid containers -/

section Validity

variable (blake3 : Bytes → Bytes32) (serde : SerdeJson)

/-- A table entry that says what its embedded segment's header says, for a
segment the structural validator accepts. -/
structure SegmentAgrees (machineConfigHash : Bytes32) (clockNum clockDen : UInt32)
    (seg : ContainerSegment) : Prop where
  version : seg.blob.header.version ∈ supportedDhilogVersions
  structural : validateStructure blake3 seg.blob = .ok ()
  base : seg.baseSnapshotRef = seg.blob.header.baseSnapshotId
  child : seg.childSnapshotRef = seg.blob.header.endSnapshotId
  hash : seg.endStateHash = seg.blob.header.endStateHash
  config : seg.blob.header.machineConfigHash = machineConfigHash
  clock : (seg.blob.header.clockNum, seg.blob.header.clockDen) = (clockNum, clockDen)

/-- Each entry starts at the snapshot the one before it ended at. -/
def ChainsFrom (base : Bytes32) : List ContainerSegment → Prop
  | [] => True
  | seg :: segs => seg.baseSnapshotRef = base ∧ ChainsFrom seg.childSnapshotRef segs

/-- What an accepted container is known to satisfy. -/
structure DilogContainer.Valid (c : DilogContainer) : Prop where
  nonempty : c.segments ≠ []
  count_lt : c.segments.length < 2 ^ 32
  meta_version : c.containerMeta.version = 1
  meta_parses : serde.fromSlice (c.containerMeta.canonicalBytes serde) = .ok c.containerMeta
  meta_lt : (c.containerMeta.canonicalBytes serde).length < 2 ^ 32
  agrees : ∀ seg ∈ c.segments,
    SegmentAgrees blake3 c.machineConfigHash c.clockNum c.clockDen seg
  chains : ChainsFrom c.rootSnapshotRef c.segments
  epochs : c.epochHashesEverywhere =
    c.segments.all fun seg => seg.blob.header.flags &&& flagEpochHashes ≠ 0

end Validity

/-! ### One pass of the reader's loop -/

theorem sitsAt_tableEntry {e : Bytes} {off : Nat} {seg : ContainerSegment} :
    SitsAt e 0 (tableEntry off seg) ↔
      SitsAt e 0 (le64 seg.nodeId) ∧ SitsAt e 8 seg.baseSnapshotRef.bytes ∧
        SitsAt e 40 seg.childSnapshotRef.bytes ∧ SitsAt e 72 seg.endStateHash.bytes ∧
        SitsAt e 104 seg.logId.bytes ∧ SitsAt e 136 (le64 (UInt64.ofNat off)) ∧
        SitsAt e 144 (le64 (UInt64.ofNat seg.blob.bytes.length)) := by
  simp only [tableEntry, sitsAt_append, length_le64, Bytes32.length_bytes, Nat.zero_add,
    Nat.reduceAdd]

@[simp] theorem checkedAdd_eq_some {a b c : Nat} :
    checkedAdd a b = some c ↔ a + b < u64Bound ∧ a + b = c := by
  unfold checkedAdd
  split <;> simp [*]

@[simp] theorem checkedMul_eq_some {a b c : Nat} :
    checkedMul a b = some c ↔ a * b < u64Bound ∧ a * b = c := by
  unfold checkedMul
  split <;> simp [*]

@[simp] theorem pad8Checked_eq_ok {ε : Type} {len c : Nat} :
    (pad8Checked len : Outcome ε Nat) = .ok c ↔ len + 7 < u64Bound ∧ pad8 len = c := by
  simp only [pad8Checked, bind_eq_ok, u64Add_eq_ok, pure_eq, Outcome.ok.injEq]
  constructor
  · rintro ⟨_, ⟨hlt, -⟩, hc⟩
    exact ⟨hlt, hc⟩
  · rintro ⟨hlt, hc⟩
    exact ⟨_, ⟨hlt, rfl⟩, hc⟩

section Reading

variable {blake3 : Bytes → Bytes32} {serde : SerdeJson}

/-- What one pass of the loop has established about the segment it pushed. -/
structure PushedSegment (blake3 : Bytes → Bytes32) (ctx : ReadContext) (st : ReadState)
    (seg : ContainerSegment) : Prop where
  entry : SitsAt ctx.bytes (ctx.tableOff + st.segments.length * tableEntryLen)
    (tableEntry st.expectedBlobOff seg)
  blob : SitsAt ctx.bytes st.expectedBlobOff (paddedBlob seg)
  fits : st.expectedBlobOff + seg.blob.bytes.length + 7 < u64Bound
  le_footer : st.expectedBlobOff + pad8 seg.blob.bytes.length ≤ ctx.footerStart
  agrees : SegmentAgrees blake3 ctx.machineConfigHash ctx.clockNum ctx.clockDen seg
  base : st.expectedBase ctx = .ok seg.baseSnapshotRef

def ReadState.push (st : ReadState) (seg : ContainerSegment) : ReadState :=
  { segments := st.segments ++ [seg]
    expectedBlobOff := st.expectedBlobOff + pad8 seg.blob.bytes.length }

theorem readSegment_sound {ctx : ReadContext} {st st' : ReadState}
    (hoff : st.expectedBlobOff % 8 = 0) (h : readSegment blake3 ctx st = .ok st') :
    ∃ seg, st' = st.push seg ∧ PushedSegment blake3 ctx st seg := by
  simp only [readSegment, bind_eq_ok, rejectIf_eq_ok, slice_eq_ok, u64At_eq_ok,
    bytes32At_eq_ok, okOr_eq_ok, mapErr_eq_ok, pure_eq, exists_and_left, exists_const,
    not_not, ne_eq, DhilogSegment.parse_eq_ok, not_lt] at h
  obtain ⟨e, ⟨he, helen⟩, nodeId, hnodeId, base, hbase, child, hchild, hash, hhash, logId,
    hlogId, off, hoffset, len, hlen, rfl, blobEnd, hblobEnd, -, paddedEnd, hpaddedEnd,
    hfooter, blob, ⟨hblob, hblobLen⟩, padding, ⟨hpadding, hpadLen⟩, hzero, seg, rfl, hversion,
    _, hvalid, hheaderBase, hheaderChild, hheaderHash, hconfig, hclock, _, hexpected, rfl, hst⟩ :=
    h
  obtain ⟨hfits, rfl⟩ := checkedAdd_eq_some.mp hblobEnd
  obtain ⟨hfits7, rfl⟩ := pad8Checked_eq_ok.mp hpaddedEnd
  have hlenNat : len.toNat = seg.bytes.length := by omega
  have hlenEq : UInt64.ofNat seg.bytes.length = len := by
    rw [← hlenNat, UInt64.ofNat_toNat]
  have hpadded : pad8 (st.expectedBlobOff + len.toNat) =
      st.expectedBlobOff + pad8 seg.bytes.length := by
    rw [hlenNat, pad8_add hoff]
  refine ⟨⟨nodeId, base, child, hash, logId, seg⟩, ?_, ?_, ?_, ?_, ?_, ?_, hexpected⟩
  · rw [← Outcome.ok.inj hst, ReadState.push, hpadded]
  · -- the 152 bytes of the entry are its seven fields
    have hentry : SitsAt e 0 (tableEntry st.expectedBlobOff
        ⟨nodeId, base, child, hash, logId, seg⟩) := by
      rw [sitsAt_tableEntry, hlenEq]
      exact ⟨hnodeId, hbase, hchild, hhash, hlogId, hoffset, hlen⟩
    have helen' : e.length = tableEntryLen := by
      rw [Nat.add_one_mul] at helen
      omega
    rw [← hentry.eq_of_length (by rw [length_tableEntry, helen'])]
    exact he
  · have hpadZero : padding = zeros padding.length :=
      any_ne_zero_eq_false.mp (by simpa using hzero)
    rw [paddedBlob, sitsAt_append]
    refine ⟨hblob, ?_⟩
    rw [hpadZero, hlenNat] at hpadding
    rwa [show pad8 seg.bytes.length - seg.bytes.length = padding.length by omega]
  · rw [← hlenNat]
    exact hfits7
  · rw [← hpadded]
    exact hfooter
  · exact ⟨hversion, hvalid, hheaderBase, hheaderChild, hheaderHash, hconfig, hclock⟩

theorem readSegment_complete {ctx : ReadContext} {st : ReadState} {seg : ContainerSegment}
    (hoff : st.expectedBlobOff % 8 = 0) (h : PushedSegment blake3 ctx st seg) :
    readSegment blake3 ctx st = .ok (st.push seg) := by
  have hle := le_pad8 seg.blob.bytes.length
  have hfits := h.fits
  have hlenNat : (UInt64.ofNat seg.blob.bytes.length).toNat = seg.blob.bytes.length :=
    UInt64.toNat_ofNat_of_lt' (show seg.blob.bytes.length < u64Bound by omega)
  have hpadded : pad8 (st.expectedBlobOff + seg.blob.bytes.length) =
      st.expectedBlobOff + pad8 seg.blob.bytes.length := pad8_add hoff
  obtain ⟨hnodeId, hbase, hchild, hhash, hlogId, hoffset, hlen⟩ :=
    sitsAt_tableEntry.mp (sitsAt_self (tableEntry st.expectedBlobOff seg))
  obtain ⟨hblob, hpadding⟩ := sitsAt_append.mp h.blob
  have hzero : ¬(zeros (pad8 seg.blob.bytes.length - seg.blob.bytes.length)).any
      (fun x => decide ¬x = 0) = true := by
    simp [zeros]
  simp only [readSegment, bind_eq_ok, rejectIf_eq_ok, slice_eq_ok, u64At_eq_ok,
    bytes32At_eq_ok, okOr_eq_ok, mapErr_eq_ok, pure_eq, exists_and_left, exists_const,
    not_not, ne_eq, DhilogSegment.parse_eq_ok, not_lt, checkedAdd_eq_some, pad8Checked_eq_ok]
  refine ⟨tableEntry st.expectedBlobOff seg, ⟨h.entry, ?_⟩, seg.nodeId, hnodeId,
    seg.baseSnapshotRef, hbase, seg.childSnapshotRef, hchild, seg.endStateHash, hhash,
    seg.logId, hlogId, _, hoffset, _, hlen, rfl, _, ⟨?_, rfl⟩, ?_, _, ⟨?_, rfl⟩, ?_,
    seg.blob.bytes, ⟨hblob, ?_⟩, _, ⟨?_, ?_⟩, hzero, seg.blob, rfl, h.agrees.version, (),
    h.agrees.structural, h.agrees.base, h.agrees.child, h.agrees.hash, h.agrees.config,
    h.agrees.clock, _, h.base, rfl, ?_⟩
  · rw [length_tableEntry]
    ring
  · rw [hlenNat]
    omega
  · have hfooter := h.le_footer
    rw [hlenNat]
    omega
  · rw [hlenNat]
    exact hfits
  · rw [hlenNat, hpadded]
    exact h.le_footer
  · rw [hlenNat]
  · rw [hlenNat]
    exact hpadding
  · rw [hlenNat, hpadded, length_zeros]
    omega
  · rw [hlenNat, hpadded]
    rfl

/-! ### The whole loop -/

theorem ReadState.expectedBase_push {ctx : ReadContext} (st : ReadState)
    (seg : ContainerSegment) :
    (st.push seg).expectedBase ctx = .ok seg.childSnapshotRef := by
  simp [ReadState.expectedBase, ReadState.push]

theorem ReadState.push_mod {st : ReadState} {seg : ContainerSegment}
    (hoff : st.expectedBlobOff % 8 = 0) : (st.push seg).expectedBlobOff % 8 = 0 := by
  have hmod := pad8_mod seg.blob.bytes.length
  simp only [ReadState.push]
  omega

theorem readSegments_sound {ctx : ReadContext} {n : Nat} {st st' : ReadState}
    (hoff : st.expectedBlobOff % 8 = 0)
    (htable : ctx.tableOff + (st.segments.length + n) * tableEntryLen ≤ ctx.bytes.length)
    (hblobs : st.expectedBlobOff ≤ ctx.footerStart)
    (hfooter : ctx.footerStart ≤ ctx.bytes.length)
    (h : readSegments blake3 ctx n st = .ok st') :
    ∃ segs, segs.length = n ∧ st'.segments = st.segments ++ segs ∧
      st'.expectedBlobOff = st.expectedBlobOff + blobsLen segs ∧
      SitsAt ctx.bytes (ctx.tableOff + st.segments.length * tableEntryLen)
        (tableBytes st.expectedBlobOff segs) ∧
      SitsAt ctx.bytes st.expectedBlobOff (blobsBytes segs) ∧
      (∀ seg ∈ segs,
        SegmentAgrees blake3 ctx.machineConfigHash ctx.clockNum ctx.clockDen seg) ∧
      ∀ base, st.expectedBase ctx = .ok base → ChainsFrom base segs := by
  induction n generalizing st with
  | zero =>
      obtain rfl : st = st' := Outcome.ok.inj h
      refine ⟨[], rfl, by simp, rfl, ?_, ?_, by simp, fun _ _ => trivial⟩
      · rw [tableBytes, sitsAt_nil]
        simpa using htable
      · rw [blobsBytes, List.flatMap_nil, sitsAt_nil]
        omega
  | succ n ih =>
      -- one entry and one blob ahead of what the rest of the loop reads
      obtain ⟨st₁, hstep, hrest⟩ := bind_eq_ok.mp h
      obtain ⟨seg, rfl, hseg⟩ := readSegment_sound hoff hstep
      have hlen : (st.push seg).segments.length = st.segments.length + 1 := by
        simp [ReadState.push]
      obtain ⟨segs, hsegs, hall, hend, hsits, hblob, hagrees, hchain⟩ :=
        ih (ReadState.push_mod hoff) (by rw [hlen]; convert htable using 3; omega)
          hseg.le_footer hrest
      refine ⟨seg :: segs, by simp [hsegs], ?_, ?_, ?_, ?_, ?_, ?_⟩
      · rw [hall, ReadState.push, List.append_assoc, List.singleton_append]
      · rw [hend, ReadState.push, blobsLen_cons, Nat.add_assoc]
      · rw [tableBytes, sitsAt_append, length_tableEntry]
        refine ⟨hseg.entry, ?_⟩
        rw [hlen, Nat.add_one_mul, ← Nat.add_assoc] at hsits
        exact hsits
      · rw [blobsBytes, List.flatMap_cons, sitsAt_append, length_paddedBlob]
        exact ⟨hseg.blob, hblob⟩
      · intro q hq
        rcases List.mem_cons.mp hq with rfl | hq
        · exact hseg.agrees
        · exact hagrees q hq
      · intro base hbase
        have heq : base = seg.baseSnapshotRef := Outcome.ok.inj (hbase.symm.trans hseg.base)
        exact ⟨heq.symm, hchain _ (st.expectedBase_push seg)⟩

theorem readSegments_complete (ctx : ReadContext) (segs : List ContainerSegment)
    (st : ReadState) {base : Bytes32}
    (hoff : st.expectedBlobOff % 8 = 0) (hfits : ctx.footerStart + 7 < u64Bound)
    (htable : SitsAt ctx.bytes (ctx.tableOff + st.segments.length * tableEntryLen)
      (tableBytes st.expectedBlobOff segs))
    (hblobs : SitsAt ctx.bytes st.expectedBlobOff (blobsBytes segs))
    (hend : st.expectedBlobOff + blobsLen segs ≤ ctx.footerStart)
    (hagrees : ∀ seg ∈ segs,
      SegmentAgrees blake3 ctx.machineConfigHash ctx.clockNum ctx.clockDen seg)
    (hbase : st.expectedBase ctx = .ok base) (hchain : ChainsFrom base segs) :
    readSegments blake3 ctx segs.length st =
      .ok ⟨st.segments ++ segs, st.expectedBlobOff + blobsLen segs⟩ := by
  induction segs generalizing st base with
  | nil => simp [readSegments]
  | cons seg segs ih =>
      have hle := le_pad8 seg.blob.bytes.length
      rw [tableBytes, sitsAt_append, length_tableEntry] at htable
      rw [blobsBytes, List.flatMap_cons, sitsAt_append, length_paddedBlob] at hblobs
      rw [blobsLen_cons] at hend
      obtain ⟨rfl, hchain⟩ := hchain
      have hseg : PushedSegment blake3 ctx st seg :=
        { entry := htable.1
          blob := hblobs.1
          fits := by omega
          le_footer := by omega
          agrees := hagrees seg List.mem_cons_self
          base := hbase }
      have hlen : (st.push seg).segments.length = st.segments.length + 1 := by
        simp [ReadState.push]
      have hrest := ih (st.push seg) (ReadState.push_mod hoff)
        (by rw [hlen, Nat.add_one_mul, ← Nat.add_assoc]; exact htable.2) hblobs.2
        (by simp only [ReadState.push]; omega)
        (fun q hq => hagrees q (List.mem_cons_of_mem _ hq)) (st.expectedBase_push seg) hchain
      rw [List.length_cons, readSegments, readSegment_complete hoff hseg, ok_bind, hrest]
      simp [ReadState.push, Nat.add_assoc]

/-! ### Reading and writing -/

theorem and_eq_self_of_and_not_eq_zero {flags mask : UInt32} (h : flags &&& ~~~mask = 0) :
    flags &&& mask = flags := by
  apply UInt32.toBitVec_inj.mp
  apply BitVec.eq_of_getElem_eq
  intro i hi
  have hbit : (flags &&& ~~~mask).toBitVec[i] = false := by
    rw [h]
    simp
  simp only [UInt32.toBitVec_and, UInt32.toBitVec_not, BitVec.getElem_and,
    BitVec.getElem_not] at hbit ⊢
  cases hf : flags.toBitVec[i] <;> simp_all

theorem cflags_iff {flags : UInt32} {all : Bool} :
    flags &&& ~~~cflagEpochHashes = 0 ∧ decide (flags &&& cflagEpochHashes ≠ 0) = all ↔
      flags = if all then cflagEpochHashes else 0 := by
  constructor
  · rintro ⟨hreserved, rfl⟩
    have hself : flags &&& 1 = flags := and_eq_self_of_and_not_eq_zero hreserved
    have hnat : flags.toNat % 2 = flags.toNat := by
      have h := congrArg UInt32.toNat hself
      rwa [UInt32.toNat_and, UInt32.toNat_one, Nat.and_one_is_mod] at h
    have hcase : flags = 0 ∨ flags = 1 := by
      rcases Nat.mod_two_eq_zero_or_one flags.toNat with h | h
      · exact .inl (UInt32.toNat_inj.mp (by rw [← hnat, h]; rfl))
      · exact .inr (UInt32.toNat_inj.mp (by rw [← hnat, h]; rfl))
    rcases hcase with rfl | rfl <;> decide
  · rintro rfl
    cases all <;> decide

theorem sitsAt_headerFields {b : Bytes} {c : DilogContainer} :
    SitsAt b 0 (c.headerFields serde) ↔
      SitsAt b 0 containerMagic ∧ SitsAt b 8 (le32 containerVersion) ∧
        SitsAt b 12 (le32 c.cflags) ∧
        SitsAt b 16 (le32 (UInt32.ofNat c.segments.length)) ∧
        SitsAt b 20 (le32 (UInt32.ofNat (c.containerMeta.canonicalBytes serde).length)) ∧
        SitsAt b 24 c.rootSnapshotRef.bytes ∧ SitsAt b 56 c.guestImageId.bytes ∧
        SitsAt b 88 c.machineConfigHash.bytes ∧ SitsAt b 120 (le32 c.clockNum) ∧
        SitsAt b 124 (le32 c.clockDen) ∧ SitsAt b 128 (le32 c.fpsNum) ∧
        SitsAt b 132 (le32 c.fpsDen) ∧ SitsAt b 136 (zeros 24) := by
  simp only [DilogContainer.headerFields, sitsAt_append, length_containerMagic, length_le32,
    Bytes32.length_bytes, Nat.zero_add, Nat.reduceAdd]

/-- An accepted file is what the writer writes for the container it was read
as, and that container is valid. -/
theorem DilogContainer.read_sound {b : Bytes} {c : DilogContainer}
    (h : DilogContainer.read blake3 serde b = .ok c) :
    c.Valid blake3 serde ∧ b = c.write blake3 serde := by
  simp only [DilogContainer.read, bind_eq_ok, rejectIf_eq_ok, slice_eq_ok, u32At_eq_ok,
    bytes32At_eq_ok, pure_eq, exists_and_left, exists_const, okOr_eq_ok, mapErr_eq_ok,
    ofExcept_eq_ok, not_not, ne_eq, not_lt, checkedAdd_eq_some, checkedMul_eq_some,
    pad8Checked_eq_ok, u64Sub_eq_ok] at h
  obtain ⟨hlen, _, ⟨hmagic, -⟩, rfl, _, hversion, rfl, flags, hflags, hreserved, h⟩ := h
  obtain ⟨reserved, ⟨hres, hresLen⟩, hresZero, footerStart, ⟨-, hfooterStart⟩, h⟩ := h
  obtain ⟨_, ⟨hfileEnd, -⟩, rfl, body, ⟨hbody, hbodyLen⟩, _, ⟨hfooterHash, -⟩, rfl, h⟩ := h
  obtain ⟨count, hcount, metaLen, hmetaLen, hcountNe, h⟩ := h
  obtain ⟨_, ⟨-, rfl⟩, _, ⟨-, rfl⟩, _, ⟨-, rfl⟩, _, ⟨-, rfl⟩, hblobsLe, h⟩ := h
  obtain ⟨_, ⟨hmeta, hmetaBytesLen⟩, metaPad, ⟨hmetaPad, hmetaPadLen⟩, hmetaZero, h⟩ := h
  obtain ⟨m, hparses, hmetaVersion, rfl, root, hroot, config, hconfig, h⟩ := h
  obtain ⟨clockNum, hclockNum, clockDen, hclockDen, st, hst, hend, hepochs, h⟩ := h
  obtain ⟨guest, hguest, fpsNum, hfpsNum, fpsDen, hfpsDen, hc⟩ := h
  -- the lengths the header announces are the lengths of what was read
  have hmetaNat : metaLen.toNat = (m.canonicalBytes serde).length := by omega
  have hmetaEq : UInt32.ofNat (m.canonicalBytes serde).length = metaLen := by
    rw [← hmetaNat, UInt32.ofNat_toNat]
  have hmetaMod := pad8_mod metaLen.toNat
  have hfl : footerLen = 40 := rfl
  obtain ⟨segs, hsegs, hall, hoff, htable, hblobs, hagrees, hchain⟩ :=
    readSegments_sound (by simp only [headerLen, tableEntryLen]; omega)
      (by simp only [List.length_nil, Nat.zero_add]; omega) hblobsLe (by simp only; omega) hst
  simp only [List.nil_append] at hall
  have hcountEq : UInt32.ofNat st.segments.length = count := by
    rw [hall, hsegs, UInt32.ofNat_toNat]
  rw [hmetaNat] at hmetaPad hmetaPadLen htable hblobs hoff
  have hmetaPadEq : metaPad = zeros metaPad.length :=
    any_ne_zero_eq_false.mp (by simpa using hmetaZero)
  have hresEq : reserved = zeros reserved.length :=
    any_ne_zero_eq_false.mp (by simpa using hresZero)
  rw [show metaPad.length = pad8 (m.canonicalBytes serde).length -
    (m.canonicalBytes serde).length by omega] at hmetaPadEq
  rw [show reserved.length = 24 by omega] at hresEq
  have hflagsEq := cflags_iff.mp ⟨hreserved, by simpa using hepochs⟩
  have hceq := Outcome.ok.inj hc
  have hvalid : c.Valid blake3 serde := by
    subst hceq
    refine ⟨?_, ?_, hmetaVersion, hparses, ?_, ?_, ?_, ?_⟩
    · simp only [hall]
      intro hnil
      rw [hnil] at hsegs
      exact hcountNe hsegs.symm
    · simp only [hall, hsegs]
      exact count.toNat_lt
    · rw [← hmetaNat]
      exact metaLen.toNat_lt
    · simp only [hall]
      exact hagrees
    · simp only [hall]
      exact hchain root rfl
    · simp
  have hbodyEq : body = c.body serde := by
    have hsits : SitsAt b 0 (c.body serde) := by
      subst hceq
      rw [DilogContainer.sitsAt_body, sitsAt_headerFields]
      simp only [DilogContainer.cflags, hcountEq, hmetaEq, DilogContainer.blobsOff,
        DilogContainer.tableOff]
      refine ⟨⟨hmagic, hversion, ?_, hcount, hmetaLen, hroot, hguest, hconfig, hclockNum,
        hclockDen, hfpsNum, hfpsDen, hresEq ▸ hres⟩, hmeta, hmetaPadEq ▸ hmetaPad, ?_, ?_⟩
      · rw [hflagsEq] at hflags
        simpa using hflags
      · rw [hall, hsegs]
        simpa using htable
      · rw [hall, hsegs]
        exact hblobs
    refine hbody.unique hsits ?_
    rw [DilogContainer.length_body, ← Nat.zero_add body.length, ← hbodyLen, ← hend, hoff]
    subst hceq
    simp only [DilogContainer.blobsOff, DilogContainer.tableOff, hall, hsegs]
  refine ⟨hvalid, ?_⟩
  have hfile : SitsAt b 0 (c.write blake3 serde) := by
    rw [DilogContainer.write_eq, sitsAt_append, sitsAt_append, ← hbodyEq, ← hbodyLen]
    refine ⟨hbody, hfooterHash, ?_⟩
    rw [Bytes32.length_bytes]
    exact hfileEnd
  refine hfile.eq_of_length ?_
  rw [DilogContainer.write_eq, List.length_append, List.length_append, ← hbodyEq,
    Bytes32.length_bytes, length_endMagic]
  omega

theorem DilogContainer.sitsAt_write (blake3 : Bytes → Bytes32) (serde : SerdeJson)
    (c : DilogContainer) :
    SitsAt (c.write blake3 serde) 0 (c.body serde) ∧
      SitsAt (c.write blake3 serde) (c.body serde).length (blake3 (c.body serde)).bytes ∧
      SitsAt (c.write blake3 serde) ((c.body serde).length + 32) endMagic := by
  have hself := sitsAt_self (c.write blake3 serde)
  rw [DilogContainer.write_eq, sitsAt_append, sitsAt_append, Nat.zero_add,
    Bytes32.length_bytes] at hself
  rw [DilogContainer.write_eq]
  exact hself

theorem DilogContainer.length_write (blake3 : Bytes → Bytes32) (serde : SerdeJson)
    (c : DilogContainer) :
    (c.write blake3 serde).length = (c.body serde).length + footerLen := by
  rw [DilogContainer.write_eq, List.length_append, List.length_append, Bytes32.length_bytes,
    length_endMagic, footerLen]

/-- A valid container is read back from the file written for it. -/
theorem DilogContainer.read_write {c : DilogContainer} (hv : c.Valid blake3 serde)
    (hfits : (c.write blake3 serde).length < u64Bound) :
    DilogContainer.read blake3 serde (c.write blake3 serde) = .ok c := by
  obtain ⟨hbody, hhash, hend⟩ := c.sitsAt_write blake3 serde
  have hlen := c.length_write blake3 serde
  have hbodyLen := c.length_body serde
  obtain ⟨hheader, hmeta, hmetaPad, htable, hblobs⟩ := DilogContainer.sitsAt_body serde |>.mp hbody
  obtain ⟨hmagic, hversion, hflags, hcount, hmetaLen, hroot, hguest, hconfig, hclockNum,
    hclockDen, hfpsNum, hfpsDen, hres⟩ := sitsAt_headerFields.mp hheader
  generalize c.write blake3 serde = b at *
  have hfl : footerLen = 40 := rfl
  have hle := le_pad8 (c.containerMeta.canonicalBytes serde).length
  have hmetaMod := pad8_mod (c.containerMeta.canonicalBytes serde).length
  have hcountNat : (UInt32.ofNat c.segments.length).toNat = c.segments.length :=
    UInt32.toNat_ofNat_of_lt' hv.count_lt
  have hmetaNat : (UInt32.ofNat (c.containerMeta.canonicalBytes serde).length).toNat =
      (c.containerMeta.canonicalBytes serde).length := UInt32.toNat_ofNat_of_lt' hv.meta_lt
  have htableOff : headerLen + pad8 (c.containerMeta.canonicalBytes serde).length =
    c.tableOff serde := rfl
  have hblobsOff : c.tableOff serde + c.segments.length * tableEntryLen = c.blobsOff serde := rfl
  have hflagsBoth := cflags_iff.mpr (rfl : c.cflags = _)
  have hloop := readSegments_complete
    ⟨b, c.tableOff serde, (c.body serde).length, c.rootSnapshotRef, c.machineConfigHash,
      c.clockNum, c.clockDen⟩ c.segments ⟨[], c.blobsOff serde⟩ (c.blobsOff_mod serde) (by simp only; omega) (by simpa using htable) hblobs
    (by simp only; omega) hv.agrees rfl hv.chains
  simp only [DilogContainer.read, bind_eq_ok, rejectIf_eq_ok, slice_eq_ok, u32At_eq_ok,
    bytes32At_eq_ok, pure_eq, exists_and_left, exists_const, okOr_eq_ok, mapErr_eq_ok,
    ofExcept_eq_ok, not_not, ne_eq, not_lt, checkedAdd_eq_some, checkedMul_eq_some,
    pad8Checked_eq_ok, u64Sub_eq_ok]
  -- the footer gate
  refine ⟨by omega, _, ⟨hmagic, rfl⟩, rfl, _, hversion, rfl, _, hflags, hflagsBoth.1, _,
    ⟨hres, by simp⟩, by simp [zeros], (c.body serde).length, ⟨by omega, by omega⟩, _,
    ⟨hend, by rw [length_endMagic]; omega⟩, rfl, _, ⟨hbody, by omega⟩, _,
    ⟨hhash, by simp⟩, rfl, _, hcount, _, hmetaLen, ?_⟩
  rw [hcountNat, hmetaNat]
  -- META and the segments
  refine ⟨?_, _, ⟨by omega, rfl⟩, _, ⟨by omega, htableOff⟩, _, ⟨by omega, rfl⟩, _,
    ⟨by omega, hblobsOff⟩, by omega, _, ⟨hmeta, rfl⟩, _, ⟨hmetaPad, by rw [length_zeros]; omega⟩, by simp [zeros], _,
    hv.meta_parses, hv.meta_version, rfl, _, hroot, _, hconfig, _, hclockNum, _, hclockDen, _,
    hloop, hbodyLen.symm, ?_, _, hguest, _, hfpsNum, _, hfpsDen, ?_⟩
  · intro hzero
    exact hv.nonempty (List.length_eq_zero_iff.mp hzero)
  · exact hflagsBoth.2.trans hv.epochs
  · have hepochs : (c.segments.all fun seg => decide ¬seg.blob.header.flags &&& flagEpochHashes = 0)
        = c.epochHashesEverywhere := hv.epochs.symm
    simp only [List.nil_append, hepochs]

end Reading

end ReplayRenderer
