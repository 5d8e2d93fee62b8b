import ReplayRenderer.Splice.RoundTrip

/-!
The untrusted surface on machine integers. Offsets of the readers are
naturals elsewhere; here every addition, multiplication and subtraction on
`usize` and `u64` is checked, and the readers are shown to end as the ones
without bounds do, and never in a panic.
-/

namespace ReplayRenderer

open Lib Lib.Outcome

/-! ### Records -/

section Iterator

variable {ε : Type}

def RecordIter.nextChecked (it : RecordIter) :
    Outcome ε (Option RecordItem × RecordIter) := do
  if it.buf.length ≤ it.off then
    return (none, it)
  let rem ← slice it.buf it.off it.buf.length
  if rem.length < recordHeaderLen then
    return (some (.error (.framing "trailing bytes shorter than a record header")),
      { it with off := it.buf.length })
  let payloadLen := (← u16At rem 2).toNat
  let padded ← pad8Checked payloadLen
  let total ← u64Add recordHeaderLen padded
  if rem.length < total then
    return (some (.error (.framing
        ("record payload_len " ++ toString payloadLen ++ " overruns the file"))),
      { it with off := it.buf.length })
  let kind ← Outcome.expect rem[0]?
  let rflags ← Outcome.expect rem[1]?
  let seq ← u32At rem 4
  let icount ← u64At rem 8
  let boundaryRip ← u64At rem 16
  let payloadEnd ← u64Add recordHeaderLen payloadLen
  let payload ← slice rem recordHeaderLen payloadEnd
  let padding ← slice rem payloadEnd total
  let framing : RecordFraming := { paddingZeroed := padding.all (· = 0) }
  let off ← u64Add it.off total
  return (some (.ok ({ kind, rflags, seq, icount, boundaryRip, payload }, framing)),
    { it with off })

def RecordIter.drainChecked : Nat → RecordIter → Outcome ε (List RecordItem)
  | 0, _ => .ok []
  | fuel + 1, it => do
    match ← it.nextChecked with
    | (none, _) => return []
    | (some item, it') =>
      let items ← RecordIter.drainChecked fuel it'
      return item :: items

theorem pad8Checked_safe {β : Type} {len : Nat} {f : Nat → Outcome ε β} {y : Outcome ε β}
    (hlt : len + 7 < u64Bound) (h : SafeAs (f (pad8 len)) y) :
    SafeAs (pad8Checked len >>= f) y := by
  rw [pad8Checked_eq_ok.mpr ⟨hlt, rfl⟩, ok_bind]
  exact h

theorem pad8Checked_same {β : Type} {len : Nat} {f g : Nat → Outcome ε β}
    (hlt : len + 7 < u64Bound) (h : SafeAs (f (pad8 len)) (g (pad8 len))) :
    SafeAs (pad8Checked len >>= f) (pad8Checked len >>= g) := by
  rw [pad8Checked_eq_ok.mpr ⟨hlt, rfl⟩, ok_bind, ok_bind]
  exact h

theorem RecordIter.nextChecked_safe {it : RecordIter} (hlen : it.buf.length < u64Bound) :
    SafeAs (it.nextChecked : Outcome ε _) it.next := by
  have h24 : recordHeaderLen = 24 := rfl
  have h64 : u64Bound = 18446744073709551616 := rfl
  refine .ite (fun _ => .ok) fun hoff => ?_
  refine .slice (by omega) (le_refl _) fun rem _ hrem => ?_
  refine .ite (fun _ => .ok) fun hhead => ?_
  refine .u16At (by omega) fun payloadLen => ?_
  have hpayload := payloadLen.toNat_lt
  have hle := le_pad8 payloadLen.toNat
  have hpad := pad8_lt payloadLen.toNat
  refine pad8Checked_safe (by omega) (.add (by omega) (.ite (fun _ => .ok) fun hover => ?_))
  refine .byteAt (by omega) fun kind => .byteAt (by omega) fun rflags => ?_
  refine .u32At (by omega) fun seq => .u64At (by omega) fun icount => ?_
  refine .u64At (by omega) fun boundaryRip => .add (by omega) ?_
  refine .slice (by omega) (by omega) fun payload _ _ => ?_
  refine .slice (by omega) (by omega) fun padding _ _ => ?_
  exact .add (by omega) .ok

theorem RecordIter.next_buf {it it' : RecordIter} {item : Option RecordItem}
    (h : (it.next : Outcome ε _) = .ok (item, it')) : it'.buf = it.buf := by
  obtain ⟨buf, off⟩ := it
  rcases RecordIter.next_cases (ε := ε) buf off with
    ⟨-, hnext⟩ | ⟨-, e, hnext⟩ | ⟨r, padding, hr, hlen, hpad⟩
  · rw [hnext] at h
    obtain ⟨-, rfl⟩ := Prod.mk.inj (Outcome.ok.inj h)
    rfl
  · rw [hnext] at h
    obtain ⟨-, rfl⟩ := Prod.mk.inj (Outcome.ok.inj h)
    rfl
  · rw [RecordIter.next_of_sitsAt hr hlen hpad] at h
    obtain ⟨-, rfl⟩ := Prod.mk.inj (Outcome.ok.inj h)
    rfl

theorem RecordIter.drainChecked_safe {fuel : Nat} {it : RecordIter}
    (hlen : it.buf.length < u64Bound) :
    SafeAs (RecordIter.drainChecked fuel it : Outcome ε _) (RecordIter.drain fuel it) := by
  induction fuel generalizing it with
  | zero => exact .ok
  | succ fuel ih =>
      refine .bind (RecordIter.nextChecked_safe hlen) fun ⟨item, it'⟩ hnext => ?_
      rw [(RecordIter.nextChecked_safe hlen).eq] at hnext
      have hbuf := RecordIter.next_buf hnext
      cases item with
      | none => exact .ok
      | some item => exact .bind (ih (hbuf ▸ hlen)) fun _ _ => .ok

def ErrorLast (items : List RecordItem) : Prop :=
  ∀ (i : Nat) (e : DhilogError), items[i]? = some (.error e) → i + 1 = items.length

theorem errorLast_nil : ErrorLast [] := fun i e h => by simp at h

theorem errorLast_singleton (item : RecordItem) : ErrorLast [item] := by
  intro i e h
  obtain ⟨hi, -⟩ := List.getElem?_eq_some_iff.mp h
  simp only [List.length_singleton] at hi ⊢
  omega

theorem ErrorLast.cons_ok {items : List RecordItem} (h : ErrorLast items)
    (x : Record × RecordFraming) : ErrorLast (.ok x :: items) := by
  intro i e hi
  cases i with
  | zero => simp at hi
  | succ i =>
      rw [List.length_cons, h i e (by simpa using hi)]

theorem RecordIter.drain_of_le {buf : Bytes} {off : Nat} (h : buf.length ≤ off) (fuel : Nat) :
    (RecordIter.drain fuel ⟨buf, off⟩ : Outcome ε _) = .ok [] := by
  cases fuel with
  | zero => rfl
  | succ fuel =>
      rw [RecordIter.drain, RecordIter.next, if_pos h]
      rfl

/-- The iteration ends, whatever the bytes, and its length does not depend on
how long one is prepared to wait. -/
theorem RecordIter.drain_total (buf : Bytes) :
    ∀ (n off : Nat), buf.length ≤ off + n →
      ∃ items, ErrorLast items ∧ ∀ fuel, buf.length ≤ off + fuel →
        (RecordIter.drain fuel ⟨buf, off⟩ : Outcome ε _) = .ok items := by
  intro n
  induction n with
  | zero => exact fun off hoff => ⟨[], errorLast_nil, fun fuel _ => drain_of_le hoff fuel⟩
  | succ n ih =>
      intro off hoff
      rcases RecordIter.next_cases (ε := ε) buf off with
        ⟨hdone, -⟩ | ⟨hlt, e, hnext⟩ | ⟨r, padding, hr, hlen, hpad⟩
      · exact ⟨[], errorLast_nil, fun fuel _ => drain_of_le hdone fuel⟩
      · -- a framing error moves to the end of the file
        refine ⟨[.error e], errorLast_singleton _, fun fuel hfuel => ?_⟩
        cases fuel with
        | zero => omega
        | succ fuel =>
            simp only [RecordIter.drain, hnext, ok_bind, pure_eq, drain_of_le (le_refl _) fuel]
      · have hnext := RecordIter.next_of_sitsAt (ε := ε) hr hlen hpad
        have hend := hr.le_length
        simp only [List.length_append, Record.length_headerBytes] at hend
        have h24 : recordHeaderLen = 24 := rfl
        obtain ⟨items, herr, hitems⟩ :=
          ih (off + recordHeaderLen + pad8 r.payload.length) (by omega)
        refine ⟨_ :: items, herr.cons_ok (r, ⟨padding.all (· = 0)⟩), fun fuel hfuel => ?_⟩
        cases fuel with
        | zero => omega
        | succ fuel =>
            simp only [RecordIter.drain, hnext, ok_bind, pure_eq, hitems fuel (by omega)]

end Iterator

def DhilogSegment.recordsChecked {ε : Type} (segment : DhilogSegment) :
    Outcome ε (List RecordItem) :=
  RecordIter.drainChecked segment.bytes.length { buf := segment.bytes, off := dhilogHeaderLen }

/-! ### Decoders -/

theorem decodePadSet_ne_panic (payload : Bytes) : decodePadSet payload ≠ .panic := by
  suffices h : SafeAs (decodePadSet payload) (decodePadSet payload) from h.ne_panic
  refine .reject fun hlen => ?_
  rw [not_not] at hlen
  refine .byteAt (by omega) fun port => .u32At (by omega) fun buttons => ?_
  exact .u32At (by omega) fun frameHint => .ok

theorem decodeFrameMark_ne_panic (payload : Bytes) : decodeFrameMark payload ≠ .panic := by
  suffices h : SafeAs (decodeFrameMark payload) (decodeFrameMark payload) from h.ne_panic
  refine .reject fun hlen => ?_
  rw [not_not] at hlen
  exact .u32At (by omega) fun frameIndex => .ok

theorem parseHeader_ne_panic (bytes : Bytes) : parseHeader bytes ≠ .panic := by
  suffices h : SafeAs (parseHeader bytes) (parseHeader bytes) from h.ne_panic
  refine .reject fun hlen => ?_
  have h256 : dhilogHeaderLen = 256 := rfl
  refine .slice (by omega) (by omega) fun magic _ _ => .reject fun _ => ?_
  refine .u32At (by omega) fun headerLen => .reject fun _ => ?_
  refine .slice (by omega) (by omega) fun reserved _ _ => .reject fun _ => ?_
  refine .u16At (by omega) fun version => .u32At (by omega) fun flags => ?_
  refine .bytes32At (by omega) fun baseSnapshotId => .bytes32At (by omega) fun endSnapshotId => ?_
  refine .bytes32At (by omega) fun entropySeed => .bytes32At (by omega) fun config => ?_
  refine .u32At (by omega) fun clockNum => .u32At (by omega) fun clockDen => ?_
  refine .u64At (by omega) fun recordCount => .u64At (by omega) fun endIcount => ?_
  refine .u64At (by omega) fun endVns => .bytes32At (by omega) fun endStateHash => ?_
  exact .bytes32At (by omega) fun bodyHash => .ok

theorem DhilogSegment.parse_ne_panic (bytes : Bytes) : DhilogSegment.parse bytes ≠ .panic := by
  unfold DhilogSegment.parse
  split
  · nofun
  · nofun
  · rename_i h
    exact absurd h (parseHeader_ne_panic bytes)

/-! ### The validator -/

/-- The loop body, its `count += 1` checked. -/
def validateRecordChecked (h : DhilogHeader) (walk : RecordWalk) (item : RecordItem) :
    Outcome StructuralIssue RecordWalk := do
  let walk' ← validateRecord h walk item
  let _ ← u64Add walk.count 1
  pure walk'

def validateRecordsChecked (h : DhilogHeader) : RecordWalk → List RecordItem →
    Outcome StructuralIssue RecordWalk
  | walk, [] => .ok walk
  | walk, item :: items => do
    let walk' ← validateRecordChecked h walk item
    validateRecordsChecked h walk' items

def validateStructureChecked (blake3 : Bytes → Bytes32) (segment : DhilogSegment) :
    Outcome StructuralIssue Unit := do
  let h := segment.header
  rejectIf (h.flags &&& flagSealed = 0)
    (issueR4 "flags.SEALED == 0 (unsealed crash artifact)")
  rejectIf (h.endStateHash = Bytes32.zero) (issueR4 "end_state_hash is zero")
  let body ← slice segment.bytes dhilogHeaderLen segment.bytes.length
  rejectIf (blake3 body ≠ h.bodyHash) (issueR4 "body_hash mismatch over [256, EOF)")
  let items ← segment.recordsChecked
  let walk ← validateRecordsChecked h RecordWalk.start items
  rejectIf (walk.endSeen = false) (issueR4 "terminal END record missing")
  rejectIf (walk.count ≠ h.recordCount.toNat)
    (issueR4 ("record_count " ++ toString h.recordCount.toNat ++ " != actual "
      ++ toString walk.count))

theorem count_lt_of_validateRecord {h : DhilogHeader} {walk walk' : RecordWalk}
    {item : RecordItem} (hok : validateRecord h walk item = .ok walk') :
    walk.count < 2 ^ 32 := by
  obtain ⟨r, rfl⟩ := eq_framed_of_validateRecord hok
  obtain ⟨-, -, hseq, -⟩ := validateRecord_eq_ok.mp hok
  rw [← hseq]
  exact r.seq.toNat_lt

theorem validateRecordsChecked_safe (h : DhilogHeader) (walk : RecordWalk)
    (items : List RecordItem) :
    SafeAs (validateRecordsChecked h walk items) (validateRecords h walk items) := by
  induction items generalizing walk with
  | nil => exact .ok
  | cons item items ih =>
      have hstep : SafeAs (validateRecordChecked h walk item) (validateRecord h walk item) := by
        have hne := validateRecord_ne_panic h walk item
        unfold validateRecordChecked
        cases hrec : validateRecord h walk item with
        | ok walk' =>
            have hlt := count_lt_of_validateRecord hrec
            exact .add (by unfold u64Bound; omega) .ok
        | err e => exact .err
        | panic => exact absurd hrec hne
      exact .bind hstep fun walk' _ => ih walk'

theorem validateStructureChecked_safe (blake3 : Bytes → Bytes32) {segment : DhilogSegment}
    (hlen : segment.bytes.length < u64Bound) :
    SafeAs (validateStructureChecked blake3 segment) (validateStructure blake3 segment) := by
  have hheader := segment.header_le_length
  refine .reject fun _ => .reject fun _ => ?_
  refine .slice hheader (le_refl _) fun body _ _ => .reject fun _ => ?_
  refine .bind (RecordIter.drainChecked_safe hlen) fun items _ => ?_
  refine .bind (validateRecordsChecked_safe _ _ items) fun walk _ => .reject fun _ => ?_
  exact .refl rejectIf_ne_panic

/-! ### Containers -/

section Reader

variable (blake3 : Bytes → Bytes32) (serde : SerdeJson)

def ReadState.expectedBaseChecked (st : ReadState) (ctx : ReadContext) :
    Outcome ContainerError Bytes32 :=
  if st.segments.length = 0 then
    .ok ctx.rootSnapshotRef
  else do
    let i ← u64Sub st.segments.length 1
    let prev ← Outcome.expect st.segments[i]?
    pure prev.childSnapshotRef

def readSegmentChecked (ctx : ReadContext) (st : ReadState) : Outcome ContainerError ReadState := do
  let i := st.segments.length
  let idx := UInt32.ofNat (← u64Add i 1)
  let entryOff ← u64Add ctx.tableOff (← u64Mul i tableEntryLen)
  let entryEnd ← u64Add ctx.tableOff (← u64Mul (← u64Add i 1) tableEntryLen)
  let e ← slice ctx.bytes entryOff entryEnd
  let nodeId ← u64At e 0
  let baseSnapshotRef ← bytes32At e 8
  let childSnapshotRef ← bytes32At e 40
  let endStateHash ← bytes32At e 72
  let logId ← bytes32At e 104
  let blobOffset ← u64At e 136
  let blobLen ← u64At e 144
  rejectIf (blobOffset ≠ UInt64.ofNat st.expectedBlobOff)
    (.nonCanonical ("segment " ++ toString idx.toNat ++ " blob_offset "
      ++ toString blobOffset.toNat ++ " != expected " ++ toString st.expectedBlobOff))
  let blobEnd ← Outcome.okOr (.truncated "blob extent overflow")
    (checkedAdd st.expectedBlobOff blobLen.toNat)
  rejectIf (ctx.footerStart < blobEnd) (.truncated "blob overruns the file")
  let paddedEnd ← pad8Checked blobEnd
  rejectIf (ctx.footerStart < paddedEnd) (.truncated "blob padding overruns the file")
  let blobBytes ← slice ctx.bytes st.expectedBlobOff blobEnd
  let padding ← slice ctx.bytes blobEnd paddedEnd
  rejectIf (padding.any (· ≠ 0) = true)
    (.nonCanonical ("segment " ++ toString idx.toNat ++ " blob padding not zero"))
  let seg ← (DhilogSegment.parse blobBytes).mapErr fun e => .segment idx e.display
  let h := seg.header
  rejectIf (h.version ∉ supportedDhilogVersions)
    (.segment idx ("unsupported DHILOG version 0x" ++ hexDigits 4 h.version.toNat))
  (validateStructureChecked blake3 seg).mapErr fun issue =>
    .segment idx (issue.rule.display ++ ": " ++ issue.detail)
  let disagree (detail : String) : ContainerError := .tableHeaderDisagreement idx detail
  rejectIf (baseSnapshotRef ≠ h.baseSnapshotId)
    (disagree "base_snapshot_ref != header base_snapshot_id")
  rejectIf (childSnapshotRef ≠ h.endSnapshotId)
    (disagree "child_snapshot_ref != header end_snapshot_id")
  rejectIf (endStateHash ≠ h.endStateHash) (disagree "end_state_hash != header end_state_hash")
  rejectIf (h.machineConfigHash ≠ ctx.machineConfigHash)
    (disagree "header machine_config_hash != container's")
  rejectIf ((h.clockNum, h.clockDen) ≠ (ctx.clockNum, ctx.clockDen))
    (disagree "header clock rational != container's")
  let expectedBase ← st.expectedBaseChecked ctx
  rejectIf (baseSnapshotRef ≠ expectedBase)
    (disagree "base_snapshot_ref breaks the table's adjacency chain")
  let pushed : ContainerSegment :=
    { nodeId, baseSnapshotRef, childSnapshotRef, endStateHash, logId, blob := seg }
  pure { segments := st.segments ++ [pushed], expectedBlobOff := paddedEnd }

def readSegmentsChecked (ctx : ReadContext) : Nat → ReadState → Outcome ContainerError ReadState
  | 0, st => .ok st
  | n + 1, st => do
    let st' ← readSegmentChecked blake3 ctx st
    readSegmentsChecked ctx n st'

def DilogContainer.readChecked (bytes : Bytes) : Outcome ContainerError DilogContainer := do
  rejectIf (bytes.length < headerLen + footerLen) (.truncated "shorter than header + footer")
  let magic ← slice bytes 0 8
  rejectIf (magic ≠ containerMagic) .badMagic
  let version ← u32At bytes 8
  rejectIf (version ≠ containerVersion) (.unsupportedVersion version)
  let flags ← u32At bytes 12
  rejectIf (flags &&& ~~~cflagEpochHashes ≠ 0) .nonzeroReserved
  let reserved ← slice bytes 136 160
  rejectIf (reserved.any (· ≠ 0) = true) .nonzeroReserved
  let footerStart ← u64Sub bytes.length footerLen
  let hashEnd ← u64Add footerStart 32
  let fileEnd ← slice bytes hashEnd bytes.length
  rejectIf (fileEnd ≠ endMagic) .badEndMagic
  let body ← slice bytes 0 footerStart
  let footerHash ← slice bytes footerStart hashEnd
  rejectIf ((blake3 body).bytes ≠ footerHash) .badFooterHash
  let segmentCount := (← u32At bytes 16).toNat
  let metaLen := (← u32At bytes 20).toNat
  rejectIf (segmentCount = 0) (.nonCanonical "segment_count == 0")
  let metaPadded ← pad8Checked metaLen
  let tableOff ← Outcome.okOr (.truncated "meta_len overflow") (checkedAdd headerLen metaPadded)
  let tableLen ← Outcome.okOr (.truncated "segment_count overflow")
    (checkedMul segmentCount tableEntryLen)
  let blobsOff ← Outcome.okOr (.truncated "table extent overflow")
    (checkedAdd tableOff tableLen)
  rejectIf (footerStart < blobsOff) (.truncated "META + table overrun the file")
  let metaEnd ← u64Add headerLen metaLen
  let metaBytes ← slice bytes headerLen metaEnd
  let metaPadding ← slice bytes metaEnd tableOff
  rejectIf (metaPadding.any (· ≠ 0) = true) (.nonCanonical "META padding not zero")
  let containerMeta ← (Outcome.ofExcept (serde.fromSlice metaBytes)).mapErr fun e =>
    .metaInvalid ("invalid JSON: " ++ e)
  rejectIf (containerMeta.version ≠ 1)
    (.metaInvalid ("unknown META version " ++ toString containerMeta.version.toNat))
  rejectIf (containerMeta.canonicalBytes serde ≠ metaBytes)
    (.nonCanonical "META is not in canonical field order/encoding")
  let rootSnapshotRef ← bytes32At bytes 24
  let machineConfigHash ← bytes32At bytes 88
  let clockNum ← u32At bytes 120
  let clockDen ← u32At bytes 124
  let ctx : ReadContext :=
    { bytes, tableOff, footerStart, rootSnapshotRef, machineConfigHash, clockNum, clockDen }
  let st ← readSegmentsChecked blake3 ctx segmentCount { segments := [], expectedBlobOff := blobsOff }
  rejectIf (st.expectedBlobOff ≠ footerStart)
    (.nonCanonical "trailing bytes between the last blob and the footer")
  let allEpochs := st.segments.all fun s => s.blob.header.flags &&& flagEpochHashes ≠ 0
  rejectIf (decide (flags &&& cflagEpochHashes ≠ 0) ≠ allEpochs)
    (.nonCanonical "flags bit0 does not equal the AND of segment EPOCH_HASHES flags")
  let guestImageId ← bytes32At bytes 56
  let fpsNum ← u32At bytes 128
  let fpsDen ← u32At bytes 132
  pure {
    epochHashesEverywhere := allEpochs
    rootSnapshotRef, guestImageId, machineConfigHash, clockNum, clockDen, fpsNum, fpsDen
    containerMeta
    segments := st.segments }

end Reader

section Safety

variable {blake3 : Bytes → Bytes32} {serde : SerdeJson}

theorem ReadState.expectedBaseChecked_safe (st : ReadState) (ctx : ReadContext) :
    SafeAs (st.expectedBaseChecked ctx) (st.expectedBase ctx) := by
  refine .ite (fun _ => .ok) fun hpos => .sub (by omega) ?_
  exact .expect (List.getElem?_eq_getElem (by omega)) .ok

/-- What the loop may rely on with `n` passes to go: the table entries and
the blob offset are in the file. -/
structure LoopBounds (ctx : ReadContext) (n : Nat) (st : ReadState) : Prop where
  lt : ctx.bytes.length < u64Bound
  footer_le : ctx.footerStart + footerLen ≤ ctx.bytes.length
  table : ctx.tableOff + (st.segments.length + n) * tableEntryLen ≤ ctx.footerStart
  blob : st.expectedBlobOff ≤ ctx.footerStart
  aligned : st.expectedBlobOff % 8 = 0

theorem readSegmentChecked_safe {ctx : ReadContext} {n : Nat} {st : ReadState}
    (h : LoopBounds ctx (n + 1) st) :
    SafeAs (readSegmentChecked blake3 ctx st) (readSegment blake3 ctx st) := by
  have hlt := h.lt
  have hfooter := h.footer_le
  have hblob := h.blob
  have h40 : footerLen = 40 := rfl
  have h152 : tableEntryLen = 152 := rfl
  have htable : ctx.tableOff + (st.segments.length + 1) * tableEntryLen ≤ ctx.footerStart :=
    (Nat.add_le_add_left (Nat.mul_le_mul_right _ (by omega)) _).trans h.table
  have hnext : (st.segments.length + 1) * tableEntryLen =
      st.segments.length * tableEntryLen + tableEntryLen := Nat.add_one_mul _ _
  have hcount : st.segments.length ≤ st.segments.length * tableEntryLen :=
    Nat.le_mul_of_pos_right _ (by omega)
  refine .add (by omega) (.mul (by omega) (.add (by omega) (.add (by omega) ?_)))
  refine .mul (by omega) (.add (by omega) ?_)
  refine .slice (by omega) (by omega) fun e _ he => ?_
  refine .u64At (by omega) fun nodeId => .bytes32At (by omega) fun baseSnapshotRef => ?_
  refine .bytes32At (by omega) fun childSnapshotRef => .bytes32At (by omega) fun endStateHash => ?_
  refine .bytes32At (by omega) fun logId => .u64At (by omega) fun blobOffset => ?_
  refine .u64At (by omega) fun blobLen => .reject fun _ => .okOr fun blobEnd hblobEnd => ?_
  obtain ⟨-, rfl⟩ := checkedAdd_eq_some.mp hblobEnd
  refine .reject fun hfits => ?_
  have hpad := le_pad8 (st.expectedBlobOff + blobLen.toNat)
  refine pad8Checked_same (by omega) (.reject fun hpadded => ?_)
  refine .slice (by omega) (by omega) fun blobBytes _ hblobLen => ?_
  refine .slice (by omega) (by omega) fun padding _ _ => .reject fun _ => ?_
  refine .bind (.mapErr (.refl (DhilogSegment.parse_ne_panic blobBytes))) fun seg hseg => ?_
  have hbytes : seg.bytes = blobBytes := DhilogSegment.parse_eq_ok.mp (mapErr_eq_ok.mp hseg)
  refine .reject fun _ => ?_
  refine .bind (.mapErr (validateStructureChecked_safe blake3 (by rw [hbytes]; omega))) fun _ _ => ?_
  refine .reject fun _ => .reject fun _ => .reject fun _ => .reject fun _ => .reject fun _ => ?_
  exact .bind (st.expectedBaseChecked_safe ctx) fun _ _ => .reject fun _ => .ok

theorem readSegmentsChecked_safe {ctx : ReadContext} {n : Nat} {st : ReadState}
    (h : LoopBounds ctx n st) :
    SafeAs (readSegmentsChecked blake3 ctx n st) (readSegments blake3 ctx n st) := by
  induction n generalizing st with
  | zero => exact .ok
  | succ n ih =>
      refine .bind (readSegmentChecked_safe h) fun st' hst => ih ?_
      rw [(readSegmentChecked_safe h).eq] at hst
      obtain ⟨seg, rfl, hseg⟩ := readSegment_sound h.aligned hst
      refine ⟨h.lt, h.footer_le, ?_, hseg.le_footer, ReadState.push_mod h.aligned⟩
      have htable := h.table
      rw [ReadState.push, List.length_append, List.length_singleton]
      rwa [Nat.add_assoc, Nat.add_comm 1]

theorem DilogContainer.readChecked_safe {bytes : Bytes} (hlen : bytes.length < u64Bound) :
    SafeAs (DilogContainer.readChecked blake3 serde bytes)
      (DilogContainer.read blake3 serde bytes) := by
  have h160 : headerLen = 160 := rfl
  have h40 : footerLen = 40 := rfl
  have h152 : tableEntryLen = 152 := rfl
  have h64 : u64Bound = 18446744073709551616 := rfl
  refine .reject fun hshort => .slice (by omega) (by omega) fun magic _ _ => .reject fun _ => ?_
  refine .u32At (by omega) fun version => .reject fun _ => ?_
  refine .u32At (by omega) fun flags => .reject fun _ => ?_
  refine .slice (by omega) (by omega) fun reserved _ _ => .reject fun _ => ?_
  refine .bind (.refl (by rw [u64Sub_of_le (by omega)]; nofun)) fun footerStart hfooter => ?_
  obtain ⟨-, rfl⟩ := u64Sub_eq_ok.mp hfooter
  refine .add (by omega) ?_
  refine .slice (by omega) (by omega) fun fileEnd _ _ => .reject fun _ => ?_
  refine .slice (by omega) (by omega) fun body _ _ => ?_
  refine .slice (by omega) (by omega) fun footerHash _ _ => .reject fun _ => ?_
  refine .u32At (by omega) fun segmentCount => .u32At (by omega) fun metaLen => ?_
  have hmetaLt := metaLen.toNat_lt
  have hle := le_pad8 metaLen.toNat
  have hmod := pad8_mod metaLen.toNat
  have hentries : segmentCount.toNat * tableEntryLen % 8 = 0 := by
    rw [h152]
    omega
  refine .reject fun _ => pad8Checked_same (by omega) ?_
  refine .okOr fun tableOff htableOff => .okOr fun tableLen htableLen => ?_
  obtain ⟨-, rfl⟩ := checkedAdd_eq_some.mp htableOff
  obtain ⟨-, rfl⟩ := checkedMul_eq_some.mp htableLen
  refine .okOr fun blobsOff hblobsOff => .reject fun hblobs => ?_
  obtain ⟨-, rfl⟩ := checkedAdd_eq_some.mp hblobsOff
  refine .add (by omega) ?_
  refine .slice (by omega) (by omega) fun metaBytes _ _ => ?_
  refine .slice (by omega) (by omega) fun metaPadding _ _ => .reject fun _ => ?_
  refine .bind (.mapErr .ofExcept) fun containerMeta _ => .reject fun _ => .reject fun _ => ?_
  refine .bytes32At (by omega) fun root => .bytes32At (by omega) fun config => ?_
  refine .u32At (by omega) fun clockNum => .u32At (by omega) fun clockDen => ?_
  refine .bind (readSegmentsChecked_safe ⟨hlen, by simp only; omega, ?_, by simp only; omega, ?_⟩)
    fun st _ => ?_
  · simp only [List.length_nil, Nat.zero_add]
    omega
  · simp only
    omega
  refine .reject fun _ => .reject fun _ => .bytes32At (by omega) fun guest => ?_
  exact .u32At (by omega) fun fpsNum => .u32At (by omega) fun fpsDen => .ok

end Safety

/-- Every byte string is read to a value or a typed error: the container
reader, and the segment parser followed by the validator, the iteration over
the records and the three decoders. The iteration yields at most one error,
and nothing behind it. -/
theorem untrusted_surface_total (blake3 : Bytes → Bytes32) (serde : SerdeJson) {bytes : Bytes}
    (hlen : bytes.length < u64Bound) :
    DilogContainer.readChecked blake3 serde bytes ≠ .panic ∧
      DhilogSegment.parse bytes ≠ .panic ∧
      ∀ segment, DhilogSegment.parse bytes = .ok segment →
        validateStructureChecked blake3 segment ≠ .panic ∧
          ∃ items, ErrorLast items ∧
            (∀ fuel, bytes.length ≤ dhilogHeaderLen + fuel →
              (RecordIter.drainChecked fuel ⟨bytes, dhilogHeaderLen⟩ : Outcome Empty _) =
                .ok items) ∧
            ∀ r framing, .ok (r, framing) ∈ items →
              decodePadSet r.payload ≠ .panic ∧ decodeFrameMark r.payload ≠ .panic ∧
                decodeEnd r.payload ≠ .panic := by
  refine ⟨(DilogContainer.readChecked_safe hlen).ne_panic, DhilogSegment.parse_ne_panic bytes,
    fun segment hparse => ?_⟩
  have hbytes : segment.bytes = bytes := DhilogSegment.parse_eq_ok.mp hparse
  obtain ⟨items, herr, hitems⟩ :=
    RecordIter.drain_total (ε := Empty) bytes bytes.length dhilogHeaderLen (Nat.le_add_left _ _)
  refine ⟨(validateStructureChecked_safe blake3 (hbytes ▸ hlen)).ne_panic, items, herr,
    fun fuel hfuel => ?_, fun r framing _ => ?_⟩
  · rw [(RecordIter.drainChecked_safe hlen).eq, hitems fuel hfuel]
  · exact ⟨decodePadSet_ne_panic _, decodeFrameMark_ne_panic _, decodeEnd_ne_panic _⟩

/-- The file of a container, which is no segment, and the bytes of one. -/
theorem untrusted_surface_total_bare :
    DilogContainer.readChecked Blake3.hash bareSerde (bareContainer.write Blake3.hash bareSerde) ≠
        .panic ∧
      ∃ segment, DhilogSegment.parse (goalEdge Blake3.hash (Bytes32.fill 2)).2.bytes = .ok segment ∧
        validateStructureChecked Blake3.hash segment ≠ .panic ∧
        ∃ items, items ≠ [] ∧ ErrorLast items ∧
          (RecordIter.drainChecked 320 ⟨segment.bytes, dhilogHeaderLen⟩ : Outcome Empty _) =
            .ok items ∧
          ∀ r framing, .ok (r, framing) ∈ items →
            decodePadSet r.payload ≠ .panic ∧ decodeFrameMark r.payload ≠ .panic ∧
              decodeEnd r.payload ≠ .panic := by
  obtain ⟨hfile, -⟩ := untrusted_surface_total Blake3.hash bareSerde
    (lt_of_eq_of_lt bareFile_length (by norm_num [u64Bound]))
  have hlength : (goalEdge Blake3.hash (Bytes32.fill 2)).2.bytes.length = 320 := bareBlob_length
  obtain ⟨-, -, hsegment⟩ := untrusted_surface_total Blake3.hash bareSerde
    (lt_of_eq_of_lt hlength (by norm_num [u64Bound]))
  have hruns : isOkAnd (fun segment => isOkAnd (fun items => !items.isEmpty)
      (RecordIter.drainChecked 320 ⟨segment.bytes, dhilogHeaderLen⟩ : Outcome Empty _))
      (DhilogSegment.parse (goalEdge Blake3.hash (Bytes32.fill 2)).2.bytes) = true := by
    decide +kernel
  obtain ⟨segment, hparse, hdrains⟩ := isOkAnd_iff.mp hruns
  obtain ⟨items, hdrain, hitems⟩ := isOkAnd_iff.mp hdrains
  have hne : items ≠ [] := by
    intro hnil
    simp [hnil] at hitems
  obtain ⟨hvalid, items', herr, hdrain', hdecode⟩ := hsegment segment hparse
  have hfuel := hdrain' 320 (by rw [hlength]; exact Nat.le_add_left _ _)
  rw [← DhilogSegment.parse_eq_ok.mp hparse] at hfuel
  obtain rfl := Outcome.ok.inj (hdrain.symm.trans hfuel)
  exact ⟨hfile, segment, hparse, hvalid, _, hne, herr, hdrain, hdecode⟩

end ReplayRenderer
