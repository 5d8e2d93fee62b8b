import ReplayRenderer.Lib.Grid
import ReplayRenderer.Splice.Assembly

/-!
The corruption helpers, which turn one good segment into the bad segments the
rules are tried on. A header and a record are their fields one after the
other, so a helper that overwrites one field makes the encoding of the header
or the record with that field changed.
-/

namespace ReplayRenderer

open Lib Lib.Outcome

def offVersion : Nat := 6
def offFlags : Nat := 12
def offBaseSnapshotId : Nat := 16
def offMachineConfigHash : Nat := 112
def offClockNum : Nat := 144
def offRecordCount : Nat := 152
def offEndStateHash : Nat := 176
def offBodyHash : Nat := 208

structure RecordMeta where
  offset : Nat
  kind : UInt8
  rflags : UInt8
  payloadLen : UInt16
  seq : UInt32
  icount : UInt64
  deriving DecidableEq, Repr

section Helpers

variable {ε : Type}

/-- `while off < bytes.len()`. Every pass moves `off` forward, so as many
passes as there are bytes are enough. -/
def recordsLoop (bytes : Bytes) : Nat → Nat → Outcome ε (List RecordMeta)
  | 0, _ => .ok []
  | fuel + 1, off =>
    if off < bytes.length then do
      let payloadLen ← u16At bytes (off + 2)
      let kind ← Outcome.expect bytes[off]?
      let rflags ← Outcome.expect bytes[off + 1]?
      let seq ← u32At bytes (off + 4)
      let icount ← u64At bytes (off + 8)
      let padded := pad8 payloadLen.toNat
      let out ← recordsLoop bytes fuel (off + (24 + padded))
      pure ({ offset := off, kind, rflags, payloadLen, seq, icount } :: out)
    else
      .ok []

def records (bytes : Bytes) : Outcome ε (List RecordMeta) :=
  recordsLoop bytes bytes.length dhilogHeaderLen

def setVersion (bytes : Bytes) (version : UInt16) : Outcome ε Bytes :=
  copyFromSlice bytes offVersion (offVersion + 2) (le16 version)

def setMachineConfigHash (bytes : Bytes) (hash : Bytes32) : Outcome ε Bytes :=
  copyFromSlice bytes offMachineConfigHash (offMachineConfigHash + 32) hash.bytes

def setClock (bytes : Bytes) (num den : UInt32) : Outcome ε Bytes := do
  let bytes ← copyFromSlice bytes offClockNum (offClockNum + 4) (le32 num)
  copyFromSlice bytes (offClockNum + 4) (offClockNum + 8) (le32 den)

def setBaseSnapshotId (bytes : Bytes) (id : Bytes32) : Outcome ε Bytes :=
  copyFromSlice bytes offBaseSnapshotId (offBaseSnapshotId + 32) id.bytes

def setEndStateHash (bytes : Bytes) (hash : Bytes32) : Outcome ε Bytes :=
  copyFromSlice bytes offEndStateHash (offEndStateHash + 32) hash.bytes

def clearSealedFlag (bytes : Bytes) : Outcome ε Bytes := do
  let flags ← u32At bytes offFlags
  let flags := flags &&& ~~~1
  copyFromSlice bytes offFlags (offFlags + 4) (le32 flags)

/-- Inside the first record's payload, when it has one. -/
def flipBodyByte (bytes : Bytes) : Outcome ε Bytes := do
  let recs ← records bytes
  let first ← Outcome.expect recs[0]?
  let b ← Outcome.expect bytes[first.offset + 24]?
  pure (bytes.set (first.offset + 24) (b ^^^ 0xFF))

section Hashed

variable (blake3 : Bytes → Bytes32)

def recomputeBodyHash (bytes : Bytes) : Outcome ε Bytes := do
  let body ← slice bytes dhilogHeaderLen bytes.length
  copyFromSlice bytes offBodyHash (offBodyHash + 32) (blake3 body).bytes

def stripEndRecord (bytes : Bytes) : Outcome ε Bytes := do
  let recs ← records bytes
  let last ← Outcome.expect recs.getLast?
  Outcome.require (last.kind = kindEnd)
  let bytes := bytes.take last.offset
  let count := UInt64.ofNat (recs.length - 1)
  let bytes ← copyFromSlice bytes offRecordCount (offRecordCount + 8) (le64 count)
  recomputeBodyHash blake3 bytes

def gapSeq (bytes : Bytes) (index : Nat) : Outcome ε Bytes := do
  let recs ← records bytes
  let r ← Outcome.expect recs[index]?
  let bumped ← u32 (r.seq.toNat + 1)
  let bytes ← copyFromSlice bytes (r.offset + 4) (r.offset + 8) (le32 (UInt32.ofNat bumped))
  recomputeBodyHash blake3 bytes

def setRecordIcount (bytes : Bytes) (index : Nat) (icount : UInt64) : Outcome ε Bytes := do
  let recs ← records bytes
  let r ← Outcome.expect recs[index]?
  let bytes ← copyFromSlice bytes (r.offset + 8) (r.offset + 16) (le64 icount)
  recomputeBodyHash blake3 bytes

end Hashed

end Helpers

/-! ### What the helpers make -/

def DhilogHeader.fields (h : DhilogHeader) : List Bytes :=
  [dhilogMagic, le16 h.version, le32 (UInt32.ofNat dhilogHeaderLen), le32 h.flags,
    h.baseSnapshotId.bytes, h.endSnapshotId.bytes, h.entropySeed.bytes,
    h.machineConfigHash.bytes, le32 h.clockNum, le32 h.clockDen, le64 h.recordCount,
    le64 h.endIcount, le64 h.endVns, h.endStateHash.bytes, h.bodyHash.bytes, zeros 16]

theorem DhilogHeader.flatten_fields (h : DhilogHeader) : h.fields.flatten = h.encode := by
  simp [DhilogHeader.fields, DhilogHeader.encode]

def Record.fields (r : Record) : List Bytes :=
  [[r.kind], [r.rflags], leBytes 2 r.payload.length, le32 r.seq, le64 r.icount,
    le64 r.boundaryRip, r.payload, zeros r.padLen]

theorem Record.flatten_fields (r : Record) : r.fields.flatten = r.encode := by
  simp [Record.fields, Record.encode, Record.headerBytes]

theorem DhilogSegment.eq_ofParts (segment : DhilogSegment) :
    segment = DhilogSegment.ofParts segment.header (segment.bytes.drop dhilogHeaderLen) := by
  have hbytes : segment.bytes =
      segment.header.encode ++ segment.bytes.drop dhilogHeaderLen := by
    have hdrop := (drop_eq_append_iff (Nat.zero_le _)).mpr
      ⟨parseHeader_eq_ok.mp segment.parsed, rfl⟩
    rwa [List.drop_zero, Nat.zero_add, DhilogHeader.length_encode] at hdrop
  obtain ⟨bytes, header, hparsed⟩ := segment
  simpa [DhilogSegment.ofParts] using hbytes

section Header

variable {ε : Type} (h : DhilogHeader) (body : Bytes)

theorem DhilogHeader.copyFromSlice_field {h h' : DhilogHeader} {body old src : Bytes}
    {i j k : Nat} (hold : h.fields[k]? = some old) (hlen : src.length = old.length)
    (hi : (h.fields.take k).flatten.length = i) (hj : i + src.length = j)
    (hset : h.fields.set k src = h'.fields) :
    (copyFromSlice (h.encode ++ body) i j src : Outcome ε Bytes) = .ok (h'.encode ++ body) := by
  have hcopy : (copyFromSlice ([] ++ (h.fields.flatten ++ body)) i j src : Outcome ε Bytes) =
      .ok ([] ++ ((h.fields.set k src).flatten ++ body)) :=
    Lib.copyFromSlice_field hold hlen (by simpa using hi) hj
  rwa [List.nil_append, List.nil_append, hset, h.flatten_fields, h'.flatten_fields] at hcopy

theorem setVersion_encode (version : UInt16) :
    (setVersion (h.encode ++ body) version : Outcome ε Bytes) =
      .ok ({ h with version }.encode ++ body) :=
  DhilogHeader.copyFromSlice_field (k := 1) rfl (by simp) rfl (by simp) rfl

theorem setMachineConfigHash_encode (hash : Bytes32) :
    (setMachineConfigHash (h.encode ++ body) hash : Outcome ε Bytes) =
      .ok ({ h with machineConfigHash := hash }.encode ++ body) :=
  DhilogHeader.copyFromSlice_field (k := 7) rfl (by simp)
    (by simp [DhilogHeader.fields, offMachineConfigHash]) (by simp) rfl

theorem setClock_encode (num den : UInt32) :
    (setClock (h.encode ++ body) num den : Outcome ε Bytes) =
      .ok ({ h with clockNum := num, clockDen := den }.encode ++ body) := by
  have hnum : (copyFromSlice (h.encode ++ body) offClockNum (offClockNum + 4) (le32 num) :
      Outcome ε Bytes) = .ok ({ h with clockNum := num }.encode ++ body) :=
    DhilogHeader.copyFromSlice_field (k := 8) rfl (by simp)
      (by simp [DhilogHeader.fields, offClockNum]) (by simp) rfl
  rw [setClock, hnum, ok_bind]
  exact DhilogHeader.copyFromSlice_field (k := 9) rfl (by simp)
    (by simp [DhilogHeader.fields, offClockNum]) (by simp [offClockNum]) rfl

theorem setBaseSnapshotId_encode (id : Bytes32) :
    (setBaseSnapshotId (h.encode ++ body) id : Outcome ε Bytes) =
      .ok ({ h with baseSnapshotId := id }.encode ++ body) :=
  DhilogHeader.copyFromSlice_field (k := 4) rfl (by simp)
    (by simp [DhilogHeader.fields, offBaseSnapshotId]) (by simp) rfl

theorem setEndStateHash_encode (hash : Bytes32) :
    (setEndStateHash (h.encode ++ body) hash : Outcome ε Bytes) =
      .ok ({ h with endStateHash := hash }.encode ++ body) :=
  DhilogHeader.copyFromSlice_field (k := 13) rfl (by simp)
    (by simp [DhilogHeader.fields, offEndStateHash]) (by simp) rfl

theorem clearSealedFlag_encode :
    (clearSealedFlag (h.encode ++ body) : Outcome ε Bytes) =
      .ok ({ h with flags := h.flags &&& ~~~1 }.encode ++ body) := by
  have hflags : (u32At (h.encode ++ body) offFlags : Outcome ε UInt32) = .ok h.flags := by
    apply u32At_eq_ok.mpr
    refine ⟨(h.fields.take 3).flatten, (h.fields.drop 4).flatten ++ body, ?_, ?_⟩
    · simp [DhilogHeader.fields, DhilogHeader.encode]
    · simp [DhilogHeader.fields, offFlags]
  rw [clearSealedFlag, hflags, ok_bind]
  exact DhilogHeader.copyFromSlice_field (k := 3) rfl (by simp)
    (by simp [DhilogHeader.fields, offFlags]) (by simp) rfl

theorem recomputeBodyHash_encode (blake3 : Bytes → Bytes32) :
    (recomputeBodyHash blake3 (h.encode ++ body) : Outcome ε Bytes) =
      .ok ({ h with bodyHash := blake3 body }.encode ++ body) := by
  have hslice : (slice (h.encode ++ body) dhilogHeaderLen (h.encode ++ body).length :
      Outcome ε Bytes) = .ok body := by
    rw [slice_to_end (by simp), ← h.length_encode, List.drop_left]
  rw [recomputeBodyHash, hslice, ok_bind]
  exact DhilogHeader.copyFromSlice_field (k := 14) rfl (by simp)
    (by simp [DhilogHeader.fields, offBodyHash]) (by simp) rfl

theorem setRecordCount_encode (count : UInt64) :
    (copyFromSlice (h.encode ++ body) offRecordCount (offRecordCount + 8) (le64 count) :
      Outcome ε Bytes) = .ok ({ h with recordCount := count }.encode ++ body) :=
  DhilogHeader.copyFromSlice_field (k := 10) rfl (by simp)
    (by simp [DhilogHeader.fields, offRecordCount]) (by simp) rfl

end Header

/-! ### The walk over the records -/

def Record.noted (r : Record) (offset : Nat) : RecordMeta :=
  { offset
    kind := r.kind
    rflags := r.rflags
    payloadLen := UInt16.ofNat r.payload.length
    seq := r.seq
    icount := r.icount }

/-- The notes of records that stand one after the other from `off` on. -/
def notedFrom : Nat → List Record → List RecordMeta
  | _, [] => []
  | off, r :: rs => r.noted off :: notedFrom (off + r.encode.length) rs

def offsetOf (off : Nat) (rs : List Record) (i : Nat) : Nat :=
  off + ((rs.take i).flatMap Record.encode).length

theorem length_notedFrom (off : Nat) (rs : List Record) :
    (notedFrom off rs).length = rs.length := by
  induction rs generalizing off with
  | nil => rfl
  | cons r rs ih => simp [notedFrom, ih]

theorem getElem?_notedFrom (off : Nat) (rs : List Record) (i : Nat) :
    (notedFrom off rs)[i]? = rs[i]?.map fun r => r.noted (offsetOf off rs i) := by
  induction rs generalizing off i with
  | nil => simp [notedFrom]
  | cons r rs ih =>
      cases i with
      | zero => simp [notedFrom, offsetOf]
      | succ i =>
          have hoff : offsetOf (off + r.encode.length) rs i = offsetOf off (r :: rs) (i + 1) := by
            simp only [offsetOf, List.take_succ_cons, List.flatMap_cons, List.length_append]
            omega
          rw [notedFrom, List.getElem?_cons_succ, List.getElem?_cons_succ, ih, hoff]

section Walk

variable {ε : Type} {rs : List Record}

theorem recordsLoop_eq {bytes pre : Bytes} {fuel off : Nat}
    (hbytes : bytes = pre ++ rs.flatMap Record.encode) (hoff : pre.length = off)
    (hfuel : bytes.length ≤ off + fuel) (hlen : ∀ r ∈ rs, r.payload.length < 2 ^ 16) :
    (recordsLoop bytes fuel off : Outcome ε _) = .ok (notedFrom off rs) := by
  induction fuel generalizing pre off rs with
  | zero =>
      cases rs with
      | nil => rfl
      | cons r rs =>
          have hpos := r.length_encode
          subst hbytes
          simp only [List.length_append, List.flatMap_cons, recordHeaderLen] at hfuel hpos
          omega
  | succ fuel ih =>
      cases rs with
      | nil =>
          have hend : ¬off < bytes.length := by
            subst hbytes
            simp [hoff]
          rw [recordsLoop, if_neg hend, notedFrom]
      | cons r rs =>
          have hr : SitsAt bytes off r.encode :=
            ⟨pre, rs.flatMap Record.encode, by rw [hbytes, List.flatMap_cons,
              List.append_assoc], hoff⟩
          have hbound := hr.le_length
          have hrlen := hlen r List.mem_cons_self
          have hsize := r.length_encode
          rw [recordHeaderLen] at hsize
          obtain ⟨hhead, -⟩ := sitsAt_append.mp hr
          simp only [Record.headerBytes, sitsAt_append, length_leBytes, length_le32,
            length_le64, List.length_singleton] at hhead
          obtain ⟨hkind, hrflags, hplen, hseq, hicount, -⟩ := hhead
          have hpl : (u16At bytes (off + 2) : Outcome ε UInt16) =
              .ok (UInt16.ofNat r.payload.length) := by
            rw [u16At_eq_ok, le16, UInt16.toNat_ofNat_of_lt' hrlen]
            exact hplen
          have hrest : bytes = (pre ++ r.encode) ++ rs.flatMap Record.encode := by
            rw [hbytes, List.flatMap_cons, List.append_assoc]
          have hoff' : (pre ++ r.encode).length = off + r.encode.length := by
            rw [List.length_append, hoff]
          have hnext := ih hrest hoff' (by omega) fun q hq => hlen q (List.mem_cons_of_mem _ hq)
          rw [hsize] at hnext
          simp only [recordsLoop, if_pos (show off < bytes.length by omega), hpl, ok_bind,
            getElem?_eq_some_iff_sitsAt.mpr hkind, getElem?_eq_some_iff_sitsAt.mpr hrflags,
            expect_some, u32At_eq_ok.mpr hseq, u64At_eq_ok.mpr hicount,
            UInt16.toNat_ofNat_of_lt' hrlen, hnext, pure_eq, notedFrom, Record.noted, hsize]

theorem records_encode (h : DhilogHeader) (hlen : ∀ r ∈ rs, r.payload.length < 2 ^ 16) :
    (records (h.encode ++ rs.flatMap Record.encode) : Outcome ε _) =
      .ok (notedFrom dhilogHeaderLen rs) :=
  recordsLoop_eq rfl h.length_encode (by omega) hlen

end Walk

/-! ### The helpers that touch records -/

section Records

variable {ε : Type} {h : DhilogHeader} {rs : List Record} {r : Record} {i : Nat}

theorem Record.copyFromSlice_field {r' : Record} {old src : Bytes} {a b k : Nat}
    (hr : rs[i]? = some r) (hold : r.fields[k]? = some old) (hlen : src.length = old.length)
    (ha : offsetOf dhilogHeaderLen rs i + (r.fields.take k).flatten.length = a)
    (hb : a + src.length = b) (hset : r.fields.set k src = r'.fields) :
    (copyFromSlice (h.encode ++ rs.flatMap Record.encode) a b src : Outcome ε Bytes) =
      .ok (h.encode ++ (rs.set i r').flatMap Record.encode) := by
  obtain ⟨hi, rfl⟩ := List.getElem?_eq_some_iff.mp hr
  have hpre : (h.encode ++ (rs.take i).flatMap Record.encode).length =
      offsetOf dhilogHeaderLen rs i := by
    rw [List.length_append, h.length_encode, offsetOf]
  have hcopy : (copyFromSlice (h.encode ++ (rs.take i).flatMap Record.encode ++
      (rs[i].fields.flatten ++ (rs.drop (i + 1)).flatMap Record.encode)) a b src :
        Outcome ε Bytes) =
      .ok (h.encode ++ (rs.take i).flatMap Record.encode ++
        ((rs[i].fields.set k src).flatten ++ (rs.drop (i + 1)).flatMap Record.encode)) :=
    Lib.copyFromSlice_field hold hlen (by rw [hpre, ha]) hb
  rw [hset, Record.flatten_fields, Record.flatten_fields, List.append_assoc, List.append_assoc,
    ← List.flatMap_cons, ← List.flatMap_cons, ← List.flatMap_append, ← List.flatMap_append,
    ← List.drop_eq_getElem_cons hi, List.take_append_drop] at hcopy
  rw [hcopy, List.set_eq_take_append_cons_drop, if_pos hi]

theorem gapSeq_encode (blake3 : Bytes → Bytes32) (hlen : ∀ r ∈ rs, r.payload.length < 2 ^ 16)
    (hr : rs[i]? = some r) (hseq : r.seq.toNat + 1 < 2 ^ 32) :
    (gapSeq blake3 (h.encode ++ rs.flatMap Record.encode) i : Outcome ε Bytes) =
      recomputeBodyHash blake3
        (h.encode ++ (rs.set i { r with seq := UInt32.ofNat (r.seq.toNat + 1) }).flatMap
          Record.encode) := by
  have hnote : (notedFrom dhilogHeaderLen rs)[i]? =
      some (r.noted (offsetOf dhilogHeaderLen rs i)) := by
    rw [getElem?_notedFrom, hr, Option.map_some]
  rw [gapSeq, records_encode h hlen, ok_bind, hnote, expect_some, ok_bind]
  have hedit : (copyFromSlice (h.encode ++ rs.flatMap Record.encode)
      (offsetOf dhilogHeaderLen rs i + 4) (offsetOf dhilogHeaderLen rs i + 8)
      (le32 (UInt32.ofNat (r.seq.toNat + 1))) : Outcome ε Bytes) =
        .ok (h.encode ++ (rs.set i { r with seq := UInt32.ofNat (r.seq.toNat + 1) }).flatMap
          Record.encode) :=
    Record.copyFromSlice_field (k := 3) hr rfl (by simp) (by simp [Record.fields]) (by simp) rfl
  simp only [Record.noted, u32_of_lt hseq, ok_bind, hedit]

theorem setRecordIcount_encode (blake3 : Bytes → Bytes32)
    (hlen : ∀ r ∈ rs, r.payload.length < 2 ^ 16) (hr : rs[i]? = some r) (icount : UInt64) :
    (setRecordIcount blake3 (h.encode ++ rs.flatMap Record.encode) i icount :
        Outcome ε Bytes) =
      recomputeBodyHash blake3
        (h.encode ++ (rs.set i { r with icount }).flatMap Record.encode) := by
  have hnote : (notedFrom dhilogHeaderLen rs)[i]? =
      some (r.noted (offsetOf dhilogHeaderLen rs i)) := by
    rw [getElem?_notedFrom, hr, Option.map_some]
  rw [setRecordIcount, records_encode h hlen, ok_bind, hnote, expect_some, ok_bind]
  have hedit : (copyFromSlice (h.encode ++ rs.flatMap Record.encode)
      (offsetOf dhilogHeaderLen rs i + 8) (offsetOf dhilogHeaderLen rs i + 16) (le64 icount) :
        Outcome ε Bytes) =
        .ok (h.encode ++ (rs.set i { r with icount }).flatMap Record.encode) :=
    Record.copyFromSlice_field (k := 4) hr rfl (by simp) (by simp [Record.fields]) (by simp) rfl
  simp only [Record.noted, hedit, ok_bind]

theorem stripEndRecord_encode (blake3 : Bytes → Bytes32) {init : List Record} {last : Record}
    (hlen : ∀ r ∈ init ++ [last], r.payload.length < 2 ^ 16) (hlast : last.kind = kindEnd) :
    (stripEndRecord blake3 (h.encode ++ (init ++ [last]).flatMap Record.encode) :
        Outcome ε Bytes) =
      recomputeBodyHash blake3 ({ h with recordCount := UInt64.ofNat init.length }.encode ++
        init.flatMap Record.encode) := by
  have hnote : (notedFrom dhilogHeaderLen (init ++ [last])).getLast? =
      some (last.noted (offsetOf dhilogHeaderLen (init ++ [last]) init.length)) := by
    rw [List.getLast?_eq_getElem?, length_notedFrom, getElem?_notedFrom]
    simp
  have hcut : (h.encode ++ (init ++ [last]).flatMap Record.encode).take
      (offsetOf dhilogHeaderLen (init ++ [last]) init.length) =
        h.encode ++ init.flatMap Record.encode := by
    rw [offsetOf, List.take_left, List.flatMap_append, ← List.append_assoc]
    exact List.take_left' (by simp)
  have hkind : (Outcome.require ((last.noted (offsetOf dhilogHeaderLen (init ++ [last])
      init.length)).kind = kindEnd) : Outcome ε Unit) = .ok () := require_pos hlast
  rw [stripEndRecord, records_encode h hlen, ok_bind, hnote, expect_some, ok_bind, hkind,
    ok_bind]
  simp only [Record.noted, hcut, length_notedFrom, List.length_append, List.length_singleton,
    Nat.add_sub_cancel]
  rw [setRecordCount_encode, ok_bind]

theorem flipBodyByte_encode {rs : List Record} {b : UInt8}
    (hlen : ∀ r ∈ rs, r.payload.length < 2 ^ 16) (hb : (rs.flatMap Record.encode)[24]? = some b) :
    (flipBodyByte (h.encode ++ rs.flatMap Record.encode) : Outcome ε Bytes) =
      .ok (h.encode ++ (rs.flatMap Record.encode).set 24 (b ^^^ 0xFF)) := by
  cases rs with
  | nil => simp at hb
  | cons r rs =>
      have hbyte : (h.encode ++ (r :: rs).flatMap Record.encode)[dhilogHeaderLen + 24]? =
          some b := by
        rw [List.getElem?_append_right (by simp), h.length_encode, Nat.add_sub_cancel_left, hb]
      rw [flipBodyByte, records_encode h hlen, ok_bind]
      simp only [notedFrom, List.getElem?_cons_zero, expect_some, ok_bind, Record.noted, hbyte,
        pure_eq]
      rw [List.set_append_right _ _ (by simp), h.length_encode, Nat.add_sub_cancel_left]

end Records

end ReplayRenderer
