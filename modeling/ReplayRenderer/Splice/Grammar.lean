import ReplayRenderer.Splice.Dhilog

/-!
The sealed DHILOG grammar, and that the structural validator accepts
exactly it.

The framing is settled first: one step of the iterator reads one record
encoding and moves past it, so draining the iterator yields a list of
records with zeroed padding exactly when the bytes are the concatenation
of their encodings. The validator's loop is then a walk over that list,
and what the walk demands record by record is the grammar.
-/

namespace ReplayRenderer

open Lib Lib.Outcome

/-! ### The header -/

def DhilogHeader.encode (h : DhilogHeader) : Bytes :=
  dhilogMagic ++ (le16 h.version ++ (le32 (UInt32.ofNat dhilogHeaderLen) ++ (le32 h.flags ++
    (h.baseSnapshotId.bytes ++ (h.endSnapshotId.bytes ++ (h.entropySeed.bytes ++
    (h.machineConfigHash.bytes ++ (le32 h.clockNum ++ (le32 h.clockDen ++
    (le64 h.recordCount ++ (le64 h.endIcount ++ (le64 h.endVns ++ (h.endStateHash.bytes ++
    (h.bodyHash.bytes ++ zeros 16))))))))))))))

@[simp] theorem length_dhilogMagic : dhilogMagic.length = 6 := rfl

@[simp] theorem DhilogHeader.length_encode (h : DhilogHeader) :
    h.encode.length = dhilogHeaderLen := by
  simp [DhilogHeader.encode, dhilogHeaderLen]

/-- A header parses exactly where its encoding stands. -/
theorem parseHeader_eq_ok {bytes : Bytes} {h : DhilogHeader} :
    parseHeader bytes = .ok h ↔ SitsAt bytes 0 h.encode := by
  have hfields : SitsAt bytes 0 h.encode ↔
      SitsAt bytes 0 dhilogMagic ∧ SitsAt bytes 6 (le16 h.version) ∧
        SitsAt bytes 8 (le32 (UInt32.ofNat dhilogHeaderLen)) ∧ SitsAt bytes 12 (le32 h.flags) ∧
        SitsAt bytes 16 h.baseSnapshotId.bytes ∧ SitsAt bytes 48 h.endSnapshotId.bytes ∧
        SitsAt bytes 80 h.entropySeed.bytes ∧ SitsAt bytes 112 h.machineConfigHash.bytes ∧
        SitsAt bytes 144 (le32 h.clockNum) ∧ SitsAt bytes 148 (le32 h.clockDen) ∧
        SitsAt bytes 152 (le64 h.recordCount) ∧ SitsAt bytes 160 (le64 h.endIcount) ∧
        SitsAt bytes 168 (le64 h.endVns) ∧ SitsAt bytes 176 h.endStateHash.bytes ∧
        SitsAt bytes 208 h.bodyHash.bytes ∧ SitsAt bytes 240 (zeros 16) := by
    simp only [DhilogHeader.encode, sitsAt_append, length_dhilogMagic, length_le16,
      length_le32, length_le64, Bytes32.length_bytes, Nat.zero_add, Nat.reduceAdd]
  rw [hfields]
  simp only [parseHeader, bind_eq_ok, rejectIf_eq_ok, slice_eq_ok, u16At_eq_ok, u32At_eq_ok,
    u64At_eq_ok, bytes32At_eq_ok, pure_eq, exists_and_left, exists_const, not_not, ne_eq]
  constructor
  · rintro ⟨-, _, ⟨hmagic, -⟩, rfl, _, hlen, rfl, reserved, ⟨hres, hresLen⟩, hzero, version,
      hversion, flags, hflags, base, hbase, end_, hend, seed, hseed, config, hconfig, num, hnum,
      den, hden, count, hcount, icount, hicount, vns, hvns, hash, hhash, body, hbody, hh⟩
    obtain rfl := Outcome.ok.inj hh
    have hreserved : reserved = zeros reserved.length :=
      any_ne_zero_eq_false.mp (by simpa using hzero)
    rw [show reserved.length = 16 by omega] at hreserved
    exact ⟨hmagic, hversion, hlen, hflags, hbase, hend, hseed, hconfig, hnum, hden, hcount,
      hicount, hvns, hhash, hbody, hreserved ▸ hres⟩
  · rintro ⟨hmagic, hversion, hlen, hflags, hbase, hend, hseed, hconfig, hnum, hden, hcount,
      hicount, hvns, hhash, hbody, hres⟩
    have hbound := hres.le_length
    rw [length_zeros] at hbound
    exact ⟨by unfold dhilogHeaderLen; omega, _, ⟨hmagic, rfl⟩, rfl, _, hlen, rfl, _,
      ⟨hres, by simp⟩, by simp [zeros], _, hversion, _, hflags, _, hbase, _, hend, _, hseed, _,
      hconfig, _, hnum, _, hden, _, hcount, _, hicount, _, hvns, _, hhash, _, hbody, rfl⟩

def DhilogSegment.ofParts (header : DhilogHeader) (body : Bytes) : DhilogSegment where
  bytes := header.encode ++ body
  header := header
  parsed := parseHeader_eq_ok.mpr ⟨[], body, by simp, rfl⟩

theorem DhilogSegment.drop_ofParts (header : DhilogHeader) (body : Bytes) :
    (DhilogSegment.ofParts header body).bytes.drop dhilogHeaderLen = body := by
  rw [DhilogSegment.ofParts, ← header.length_encode, List.drop_left]

/-! ### Framing -/

def Record.headerBytes (r : Record) : Bytes :=
  [r.kind] ++ ([r.rflags] ++ (leBytes 2 r.payload.length ++ (le32 r.seq ++
    (le64 r.icount ++ le64 r.boundaryRip))))

def Record.padLen (r : Record) : Nat := pad8 r.payload.length - r.payload.length

/-- A record on disk: header, payload, zero padding to eight. -/
def Record.encode (r : Record) : Bytes :=
  r.headerBytes ++ (r.payload ++ zeros r.padLen)

@[simp] theorem Record.length_headerBytes (r : Record) :
    r.headerBytes.length = recordHeaderLen := by
  simp [Record.headerBytes, recordHeaderLen]

@[simp] theorem Record.length_encode (r : Record) :
    r.encode.length = recordHeaderLen + pad8 r.payload.length := by
  have hle := le_pad8 r.payload.length
  simp only [Record.encode, List.length_append, Record.length_headerBytes,
    length_zeros, Record.padLen]
  omega

/-- The step a well-framed record makes the iterator take, padding bytes
still arbitrary. -/
theorem RecordIter.next_of_sitsAt {ε : Type} {buf padding : Bytes} {off : Nat}
    {r : Record} (hr : SitsAt buf off (r.headerBytes ++ (r.payload ++ padding)))
    (hlen : r.payload.length < 2 ^ 16) (hpad : padding.length = r.padLen) :
    (RecordIter.next ⟨buf, off⟩ : Outcome ε _) =
      .ok (some (.ok (r, ⟨padding.all (· = 0)⟩)),
        ⟨buf, off + recordHeaderLen + pad8 r.payload.length⟩) := by
  have hle := le_pad8 r.payload.length
  have hend := hr.le_length
  simp only [List.length_append, Record.length_headerBytes, hpad, Record.padLen] at hend
  have hoff : off ≤ buf.length := by omega
  -- the same fields, seen from the start of the remaining bytes
  have hrem : SitsAt (buf.drop off) 0 (r.headerBytes ++ (r.payload ++ padding)) :=
    (sitsAt_drop hoff).mpr hr
  have hremLen : (buf.drop off).length = buf.length - off := List.length_drop
  have hslice : (slice buf off buf.length : Outcome ε Bytes) = .ok (buf.drop off) :=
    slice_to_end hoff
  obtain ⟨hhead, hbody⟩ := sitsAt_append.mp hrem
  obtain ⟨hpayload, hpadding⟩ := sitsAt_append.mp hbody
  simp only [Record.headerBytes, sitsAt_append, length_leBytes, length_le32, length_le64,
    List.length_singleton] at hhead
  obtain ⟨hkind, hrflags, hplen, hseq, hicount, hrip⟩ := hhead
  have hpl : (u16At (buf.drop off) 2 : Outcome ε UInt16) =
      .ok (UInt16.ofNat r.payload.length) := by
    rw [u16At_eq_ok, le16, UInt16.toNat_ofNat_of_lt' hlen]
    exact hplen
  have hplNat : (UInt16.ofNat r.payload.length).toNat = r.payload.length :=
    UInt16.toNat_ofNat_of_lt' hlen
  have hk : (buf.drop off)[0]? = some r.kind := getElem?_eq_some_iff_sitsAt.mpr hkind
  have hf : (buf.drop off)[1]? = some r.rflags := getElem?_eq_some_iff_sitsAt.mpr hrflags
  have hs : (u32At (buf.drop off) 4 : Outcome ε UInt32) = .ok r.seq := u32At_eq_ok.mpr hseq
  have hi : (u64At (buf.drop off) 8 : Outcome ε UInt64) = .ok r.icount :=
    u64At_eq_ok.mpr hicount
  have hb : (u64At (buf.drop off) 16 : Outcome ε UInt64) = .ok r.boundaryRip :=
    u64At_eq_ok.mpr hrip
  simp only [Record.length_headerBytes, Nat.zero_add] at hpayload hpadding
  have hp : (slice (buf.drop off) recordHeaderLen
      (recordHeaderLen + r.payload.length) : Outcome ε Bytes) = .ok r.payload :=
    slice_of_sitsAt hpayload rfl
  have hz : (slice (buf.drop off) (recordHeaderLen + r.payload.length)
      (recordHeaderLen + pad8 r.payload.length) : Outcome ε Bytes) = .ok padding :=
    slice_of_sitsAt hpadding (by rw [hpad, Record.padLen]; omega)
  have h24 : recordHeaderLen = 24 := rfl
  simp only [RecordIter.next, show ¬buf.length ≤ off by omega, if_false, hslice, ok_bind,
    show ¬(buf.drop off).length < recordHeaderLen by omega, hpl, hplNat,
    show ¬(buf.drop off).length < recordHeaderLen + pad8 r.payload.length by omega,
    hk, hf, hs, hi, hb, hp, hz, expect_some, pure_eq, Nat.add_assoc]

/-- Whenever a header and its announced payload are there, they are the
encoding of some record, up to the padding bytes. -/
theorem exists_record_sitsAt {buf : Bytes} {off len : Nat}
    (hlen : len < 2 ^ 16) (hplen : SitsAt buf (off + 2) (leBytes 2 len))
    (hend : off + recordHeaderLen + pad8 len ≤ buf.length) :
    ∃ (r : Record) (padding : Bytes),
      SitsAt buf off (r.headerBytes ++ (r.payload ++ padding)) ∧
        r.payload.length < 2 ^ 16 ∧ padding.length = r.padLen := by
  have hle := le_pad8 len
  have h24 : recordHeaderLen = 24 := rfl
  obtain ⟨kind, hkind⟩ := exists_sitsAt_byte buf off (by omega)
  obtain ⟨rflags, hrflags⟩ := exists_sitsAt_byte buf (off + 1) (by omega)
  obtain ⟨seq, hseq⟩ := exists_sitsAt_le32 buf (off + 4) (by omega)
  obtain ⟨icount, hicount⟩ := exists_sitsAt_le64 buf (off + 8) (by omega)
  obtain ⟨rip, hrip⟩ := exists_sitsAt_le64 buf (off + 16) (by omega)
  obtain ⟨payload, hpayloadLen, hpayload⟩ :=
    exists_sitsAt buf (off + 24) len (by omega)
  obtain ⟨padding, hpaddingLen, hpadding⟩ :=
    exists_sitsAt buf (off + 24 + len) (pad8 len - len) (by omega)
  refine ⟨⟨kind, rflags, seq, icount, rip, payload⟩, padding, ?_, ?_, ?_⟩
  · simp only [Record.headerBytes, sitsAt_append, hpayloadLen, List.length_append,
      List.length_singleton, length_leBytes, length_le32, length_le64]
    exact ⟨⟨hkind, hrflags, hplen, hseq, hicount, hrip⟩, hpayload, hpadding⟩
  · rw [hpayloadLen]
    exact hlen
  · rw [hpaddingLen, Record.padLen, hpayloadLen]

/-- What one step of the iterator can do: stop at the end, report a framing
error and give up, or read one record. -/
theorem RecordIter.next_cases {ε : Type} (buf : Bytes) (off : Nat) :
    (buf.length ≤ off ∧
      (RecordIter.next ⟨buf, off⟩ : Outcome ε _) = .ok (none, ⟨buf, off⟩)) ∨
    (off < buf.length ∧ ∃ e,
      (RecordIter.next ⟨buf, off⟩ : Outcome ε _) =
        .ok (some (.error e), ⟨buf, buf.length⟩)) ∨
    ∃ (r : Record) (padding : Bytes),
      SitsAt buf off (r.headerBytes ++ (r.payload ++ padding)) ∧
        r.payload.length < 2 ^ 16 ∧ padding.length = r.padLen := by
  by_cases hoff : buf.length ≤ off
  · refine .inl ⟨hoff, ?_⟩
    simp only [RecordIter.next, hoff, if_true, pure_eq]
  have hremLen : (buf.drop off).length = buf.length - off := List.length_drop
  have hslice : (slice buf off buf.length : Outcome ε Bytes) = .ok (buf.drop off) :=
    slice_to_end (by omega)
  have h24 : recordHeaderLen = 24 := rfl
  by_cases hhead : (buf.drop off).length < recordHeaderLen
  · refine .inr (.inl ⟨by omega, .framing "trailing bytes shorter than a record header", ?_⟩)
    simp only [RecordIter.next, hoff, if_false, hslice, ok_bind, hhead, if_true, pure_eq]
  obtain ⟨len, hlen, hplen⟩ :=
    exists_sitsAt_leBytes buf (off + 2) 2 (by omega)
  have hlenNat : (UInt16.ofNat len).toNat = len := UInt16.toNat_ofNat_of_lt' hlen
  have hu16 : (u16At (buf.drop off) 2 : Outcome ε UInt16) = .ok (UInt16.ofNat len) := by
    rw [u16At_eq_ok, le16, hlenNat, sitsAt_drop (by omega)]
    exact hplen
  by_cases hover : (buf.drop off).length < recordHeaderLen + pad8 len
  · refine .inr (.inl ⟨by omega,
      .framing ("record payload_len " ++ toString len ++ " overruns the file"), ?_⟩)
    simp only [RecordIter.next, hoff, if_false, hslice, ok_bind, hhead, hu16, hlenNat, hover,
      if_true, pure_eq]
  · exact .inr (.inr (exists_record_sitsAt hlen hplen (by omega)))

/-- What the iterator yields for a record with zeroed padding. -/
def framed (r : Record) : RecordItem := .ok (r, ⟨true⟩)

theorem Record.encode_append_ne_nil (r : Record) (s : Bytes) : r.encode ++ s ≠ [] := by
  intro h
  have hlen := congrArg List.length h
  rw [List.length_append, Record.length_encode, List.length_nil] at hlen
  unfold recordHeaderLen at hlen
  omega

theorem RecordIter.next_of_encode {ε : Type} {buf : Bytes} {off : Nat} {r : Record}
    (hr : SitsAt buf off r.encode) (hlen : r.payload.length < 2 ^ 16) :
    (RecordIter.next ⟨buf, off⟩ : Outcome ε _) =
      .ok (some (framed r), ⟨buf, off + r.encode.length⟩) := by
  have hpad : (zeros r.padLen).all (· = 0) = true := by
    rw [all_eq_zero_iff, length_zeros]
  rw [RecordIter.next_of_sitsAt hr hlen (length_zeros _), hpad, Record.length_encode, framed,
    Nat.add_assoc]

/-- Items that are clean records exactly when the file from `off` on is the
concatenation of their encodings. -/
def DrainsTo (buf : Bytes) (off : Nat) (items : List RecordItem) : Prop :=
  ∀ rs : List Record, items = rs.map framed ↔
    buf.drop off = rs.flatMap Record.encode ∧ ∀ r ∈ rs, r.payload.length < 2 ^ 16

theorem drainsTo_nil {buf : Bytes} {off : Nat} (hoff : buf.length ≤ off) :
    DrainsTo buf off [] := by
  intro rs
  rw [List.drop_eq_nil_of_le hoff]
  cases rs with
  | nil => simp
  | cons r rs =>
      have hne := (Record.encode_append_ne_nil r (rs.flatMap Record.encode)).symm
      simp [hne]

/-- A framing error is an item of its own, and no encoding starts there. -/
theorem drainsTo_error {ε : Type} {buf : Bytes} {off : Nat} {e : DhilogError} {it : RecordIter}
    (hoff : off < buf.length)
    (hnext : (RecordIter.next ⟨buf, off⟩ : Outcome ε _) = .ok (some (.error e), it))
    (items : List RecordItem) : DrainsTo buf off (.error e :: items) := by
  intro rs
  cases rs with
  | nil => simpa using hoff
  | cons r rs =>
      simp only [List.map_cons, framed, List.cons.injEq, reduceCtorEq, false_and,
        List.flatMap_cons, drop_eq_append_iff hoff.le, false_iff]
      rintro ⟨⟨hr, -⟩, hlen⟩
      rw [RecordIter.next_of_encode hr (hlen r List.mem_cons_self)] at hnext
      simp [framed] at hnext

/-- A record that was read, before items that the rest drains to. -/
theorem drainsTo_record {buf : Bytes} {off : Nat} {r : Record} {padding : Bytes}
    {items : List RecordItem} (hr : SitsAt buf off (r.headerBytes ++ (r.payload ++ padding)))
    (hlen : r.payload.length < 2 ^ 16) (hpad : padding.length = r.padLen)
    (hitems : DrainsTo buf (off + recordHeaderLen + pad8 r.payload.length) items) :
    DrainsTo buf off (.ok (r, ⟨padding.all (· = 0)⟩) :: items) := by
  have hnext := RecordIter.next_of_sitsAt (ε := PUnit) hr hlen hpad
  have hend := hr.le_length
  simp only [List.length_append, Record.length_headerBytes] at hend
  have hoff : off ≤ buf.length := by omega
  intro rs
  cases rs with
  | nil =>
      have h24 : recordHeaderLen = 24 := rfl
      simp only [List.map_nil, reduceCtorEq, List.flatMap_nil, List.drop_eq_nil_iff, false_iff]
      omega
  | cons r' rs =>
      rw [List.map_cons, List.cons.injEq, hitems rs, List.flatMap_cons, drop_eq_append_iff hoff]
      constructor
      · -- the padding bit says that what was read is the encoding
        rintro ⟨hitem, hrest, hlens⟩
        simp only [framed, Except.ok.injEq, Prod.mk.injEq, RecordFraming.mk.injEq,
          all_eq_zero_iff, hpad] at hitem
        obtain ⟨rfl, hzero⟩ := hitem
        rw [hzero] at hr
        refine ⟨⟨hr, ?_⟩, ?_⟩
        · rw [Record.length_encode, ← Nat.add_assoc]
          exact hrest
        · intro q hq
          rcases List.mem_cons.mp hq with rfl | hq
          · exact hlen
          · exact hlens q hq
      · rintro ⟨⟨hr', hrest⟩, hlens⟩
        rw [RecordIter.next_of_encode hr' (hlens r' List.mem_cons_self)] at hnext
        simp only [Outcome.ok.injEq, Prod.mk.injEq, Option.some.injEq] at hnext
        obtain ⟨hitem, hiter⟩ := hnext
        have hoff' : off + recordHeaderLen + pad8 r.payload.length = off + r'.encode.length := by
          simpa using hiter.symm
        rw [hoff']
        exact ⟨hitem.symm, hrest, fun q hq => hlens q (List.mem_cons_of_mem _ hq)⟩

/-- Draining always ends, and yields clean records exactly when the rest of
the file is the concatenation of their encodings. -/
theorem RecordIter.drain_spec {ε : Type} {buf : Bytes} {fuel off : Nat}
    (hfuel : buf.length ≤ off + fuel) :
    ∃ items, (RecordIter.drain fuel ⟨buf, off⟩ : Outcome ε _) = .ok items ∧
      DrainsTo buf off items := by
  induction fuel generalizing off with
  | zero => exact ⟨[], rfl, drainsTo_nil (by omega)⟩
  | succ fuel ih =>
      rcases RecordIter.next_cases (ε := ε) buf off with
        ⟨hoff, hnext⟩ | ⟨hoff, e, hnext⟩ | ⟨r, padding, hr, hlen, hpad⟩
      · refine ⟨[], ?_, drainsTo_nil hoff⟩
        simp only [RecordIter.drain, hnext, ok_bind, pure_eq]
      · obtain ⟨items, hitems, -⟩ := ih (Nat.le_add_right buf.length fuel)
        refine ⟨.error e :: items, ?_, drainsTo_error hoff hnext items⟩
        simp only [RecordIter.drain, hnext, ok_bind, hitems, pure_eq]
      · have hnext := RecordIter.next_of_sitsAt (ε := ε) hr hlen hpad
        obtain ⟨items, hitems, hspec⟩ :=
          ih (show buf.length ≤ off + recordHeaderLen + pad8 r.payload.length + fuel by
            unfold recordHeaderLen
            omega)
        refine ⟨.ok (r, ⟨padding.all (· = 0)⟩) :: items, ?_, drainsTo_record hr hlen hpad hspec⟩
        simp only [RecordIter.drain, hnext, ok_bind, hitems, pure_eq]

/-- The records of a segment are clean and are `rs` exactly when the body is
the concatenation of their encodings. -/
theorem DhilogSegment.records_eq_ok {ε : Type} (segment : DhilogSegment) :
    ∃ items, (segment.records : Outcome ε _) = .ok items ∧
      ∀ rs : List Record, items = rs.map framed ↔
        segment.bytes.drop dhilogHeaderLen = rs.flatMap Record.encode ∧
          ∀ r ∈ rs, r.payload.length < 2 ^ 16 :=
  RecordIter.drain_spec (by omega)

/-! ### The grammar -/

def Record.IsEnd (r : Record) : Prop := r.kind = kindEnd ∧ r.rflags = rflagAux

instance (r : Record) : Decidable r.IsEnd := inferInstanceAs (Decidable (_ ∧ _))

structure RecordAllowed (h : DhilogHeader) (r : Record) : Prop where
  rflags : r.rflags = 0 ∨ r.rflags = rflagAux
  payload_le : r.payload.length ≤ 4096
  canonical : r.rflags ≠ rflagAux →
    r.kind = kindPadSet ∨ r.kind = kindDevEvent ∨
      (r.kind = kindNetRx ∧ r.payload.length ≤ 2048)
  icount_le : r.icount ≤ h.endIcount

structure EndAllowed (h : DhilogHeader) (r : Record) : Prop where
  icount : r.icount = h.endIcount
  payload_length : r.payload.length = 40
  carries_hash : SitsAt r.payload 8 h.endStateHash.bytes

def EndsOnce (h : DhilogHeader) (rs : List Record) : Prop :=
  ∃ init last, rs = init ++ [last] ∧ last.IsEnd ∧ EndAllowed h last ∧
    ∀ r ∈ init, ¬r.IsEnd

structure SealedGrammar (h : DhilogHeader) (rs : List Record) : Prop where
  count : rs.length = h.recordCount.toNat
  seq : ∀ (i : Nat) (r : Record), rs[i]? = some r → r.seq.toNat = i
  monotone : rs.Pairwise fun r r' => r.icount ≤ r'.icount
  allowed : ∀ r ∈ rs, RecordAllowed h r
  terminal : EndsOnce h rs

/-- A record stream read from the middle: the walk has numbered `count`
records so far, the last of them at `prevIcount`, and has not seen END. -/
structure WalksFrom (h : DhilogHeader) (walk : RecordWalk) (rs : List Record) : Prop where
  seq : ∀ (i : Nat) (r : Record), rs[i]? = some r → r.seq.toNat = walk.count + i
  above : ∀ r ∈ rs, walk.prevIcount ≤ r.icount
  monotone : rs.Pairwise fun r r' => r.icount ≤ r'.icount
  allowed : ∀ r ∈ rs, RecordAllowed h r
  terminal : EndsOnce h rs

/-- `rflags & !RFLAG_AUX` is zero for the two defined values only. -/
theorem rflags_undefined_iff (b : UInt8) :
    b &&& ~~~rflagAux = 0 ↔ b = 0 ∨ b = rflagAux := by
  rcases b with ⟨b⟩
  revert b
  decide +kernel

theorem Record.isAux_iff {r : Record} (h : r.rflags = 0 ∨ r.rflags = rflagAux) :
    r.isAux = true ↔ r.rflags = rflagAux := by
  have hdec : ∀ b : UInt8, b = 0 ∨ b = rflagAux →
      (decide (b &&& rflagAux ≠ 0) = true ↔ b = rflagAux) := by
    rintro b (rfl | rfl) <;> decide
  exact hdec _ h

/-- Past the numbering range the walk stops, so the truncation that follows
never shows. -/
theorem seq_iff {seq : UInt32} {count : Nat} :
    (¬2 ^ 32 - 1 < count ∧ seq = UInt32.ofNat count) ↔ seq.toNat = count := by
  constructor
  · rintro ⟨hlt, rfl⟩
    exact UInt32.toNat_ofNat_of_lt' (show count < 2 ^ 32 by omega)
  · rintro rfl
    have hlt := seq.toNat_lt
    exact ⟨by omega, UInt32.ofNat_toNat.symm⟩


theorem canonical_iff {r : Record} (hflags : r.rflags = 0 ∨ r.rflags = rflagAux) :
    (¬(r.isAux = false ∧ r.kind = kindNetRx ∧ 2048 < r.payload.length) ∧
      ¬(r.isAux = false ∧ r.kind ∉ [kindPadSet, kindDevEvent, kindNetRx])) ↔
      (r.rflags ≠ rflagAux → r.kind = kindPadSet ∨ r.kind = kindDevEvent ∨
        (r.kind = kindNetRx ∧ r.payload.length ≤ 2048)) := by
  have haux := Record.isAux_iff hflags
  by_cases h : r.rflags = rflagAux
  · simp [haux.mpr h, h]
  · have hfalse : r.isAux = false := by
      rw [← Bool.not_eq_true, haux]
      exact h
    simp only [hfalse, true_and, h, ne_eq, not_false_eq_true, forall_const, List.mem_cons,
      List.not_mem_nil, or_false]
    constructor
    · rintro ⟨hnet, hkind⟩
      rcases not_not.mp hkind with hk | hk | hk
      · exact .inl hk
      · exact .inr (.inl hk)
      · exact .inr (.inr ⟨hk, not_lt.mp fun hlt => hnet ⟨hk, hlt⟩⟩)
    · rintro (hk | hk | ⟨hk, hlen⟩)
      · exact ⟨by simp [hk, kindPadSet, kindNetRx], by simp [hk]⟩
      · exact ⟨by simp [hk, kindDevEvent, kindNetRx], by simp [hk]⟩
      · exact ⟨fun hnet => absurd hnet.2 (not_lt.mpr hlen), by simp [hk]⟩

theorem validateEnd_eq_ok {h : DhilogHeader} {r : Record} {u : Unit} :
    validateEnd h r = .ok u ↔ EndAllowed h r := by
  have hread : (∃ e, decodeEnd r.payload = .ok e ∧ e.endStateHash = h.endStateHash) ↔
      r.payload.length = 40 ∧ SitsAt r.payload 8 h.endStateHash.bytes := by
    simp only [decodeEnd, bind_eq_ok, rejectIf_eq_ok, not_not, expect_eq_ok, pure_eq,
      Outcome.ok.injEq, bytes32At_eq_ok]
    constructor
    · rintro ⟨e, ⟨-, hlen, stop, -, hash, hhash, rfl⟩, rfl⟩
      exact ⟨hlen, hhash⟩
    · rintro ⟨hlen, hhash⟩
      have h0 : 0 < r.payload.length := by omega
      exact ⟨_, ⟨(), hlen, _, List.getElem?_eq_getElem h0, _, hhash, rfl⟩, rfl⟩
  simp only [validateEnd, bind_eq_ok, mapErr_eq_ok, rejectIf_eq_ok, not_not]
  constructor
  · rintro ⟨e, he, -, hicount, hhash⟩
    obtain ⟨hlen, hsits⟩ := hread.mp ⟨e, he, hhash⟩
    exact ⟨hicount, hlen, hsits⟩
  · rintro ⟨hicount, hlen, hsits⟩
    obtain ⟨e, he, hhash⟩ := hread.mpr ⟨hlen, hsits⟩
    exact ⟨e, he, (), hicount, hhash⟩

/-- One step of the validator on a clean record. -/
theorem validateRecord_eq_ok {h : DhilogHeader} {walk walk' : RecordWalk} {r : Record} :
    validateRecord h walk (framed r) = .ok walk' ↔
      walk.endSeen = false ∧ RecordAllowed h r ∧ r.seq.toNat = walk.count ∧
        walk.prevIcount ≤ r.icount ∧ (r.IsEnd → EndAllowed h r) ∧
        walk' = ⟨walk.count + 1, r.icount, decide r.IsEnd⟩ := by
  simp only [validateRecord, framed, bind_eq_ok, rejectIf_eq_ok, exists_and_left,
    exists_const, not_not, rflags_undefined_iff, UInt64.not_lt, Bool.not_eq_true]
  -- the two checks made first decide by themselves when they fail
  by_cases hseen : walk.endSeen = false
  case neg => simp [hseen]
  by_cases hflags : r.rflags = 0 ∨ r.rflags = rflagAux
  case neg =>
    have hnot : ¬RecordAllowed h r := fun hr => hflags hr.rflags
    simp [hflags, hnot]
  have hend : (r.kind = kindEnd ∧ r.isAux = true) ↔ r.IsEnd := by
    rw [Record.isAux_iff hflags, Record.IsEnd]
  have hallowed : RecordAllowed h r ↔ r.payload.length ≤ 4096 ∧
      (¬(r.isAux = false ∧ r.kind = kindNetRx ∧ 2048 < r.payload.length) ∧
        ¬(r.isAux = false ∧ r.kind ∉ [kindPadSet, kindDevEvent, kindNetRx])) ∧
      r.icount ≤ h.endIcount := by
    rw [canonical_iff hflags]
    refine ⟨fun hr => ⟨hr.payload_le, hr.canonical, hr.icount_le⟩, ?_⟩
    rintro ⟨hlen, hkind, hic⟩
    exact ⟨hflags, hlen, hkind, hic⟩
  have hlast : (if r.IsEnd then do
        validateEnd h r
        pure { count := walk.count + 1, prevIcount := r.icount, endSeen := true }
      else pure { count := walk.count + 1, prevIcount := r.icount, endSeen := false } :
        Outcome StructuralIssue RecordWalk) = .ok walk' ↔
      (r.IsEnd → EndAllowed h r) ∧ walk' = ⟨walk.count + 1, r.icount, decide r.IsEnd⟩ := by
    by_cases he : r.IsEnd
    · have hbind : (validateEnd h r >>= fun _ =>
          (pure ⟨walk.count + 1, r.icount, true⟩ : Outcome StructuralIssue RecordWalk)) =
            .ok walk' ↔ EndAllowed h r ∧ walk' = ⟨walk.count + 1, r.icount, true⟩ := by
        simp only [bind_eq_ok, validateEnd_eq_ok, pure_eq, Outcome.ok.injEq,
          exists_and_left, exists_const, @eq_comm _ walk']
      simpa [he] using hbind
    · simp [he, @eq_comm _ walk']
  rw [hallowed, ← seq_iff]
  simp only [hseen, hend, hlast, hflags, true_and, reduceCtorEq, not_false_eq_true, not_lt]
  constructor
  · rintro ⟨hlen, hrx, hkinds, hcount, hseq, hprev, hicount, hrest⟩
    exact ⟨⟨hlen, ⟨hrx, hkinds⟩, hicount⟩, ⟨hcount, hseq⟩, hprev, hrest⟩
  · rintro ⟨⟨hlen, ⟨hrx, hkinds⟩, hicount⟩, ⟨hcount, hseq⟩, hprev, hrest⟩
    exact ⟨hlen, hrx, hkinds, hcount, hseq, hprev, hicount, hrest⟩

theorem eq_framed_of_validateRecord {h : DhilogHeader} {walk walk' : RecordWalk}
    {item : RecordItem} (hok : validateRecord h walk item = .ok walk') :
    ∃ r, item = framed r := by
  cases item with
  | error e => simp [validateRecord] at hok
  | ok x =>
      obtain ⟨r, ⟨zeroed⟩⟩ := x
      simp only [validateRecord, bind_eq_ok, rejectIf_eq_ok] at hok
      obtain ⟨-, -, -, hzeroed, -⟩ := hok
      obtain rfl : zeroed = true := by simpa using hzeroed
      exact ⟨r, rfl⟩

theorem eq_map_framed_of_validateRecords {h : DhilogHeader} {walk walk' : RecordWalk}
    {items : List RecordItem} (hok : validateRecords h walk items = .ok walk') :
    ∃ rs : List Record, items = rs.map framed := by
  induction items generalizing walk with
  | nil => exact ⟨[], rfl⟩
  | cons item items ih =>
      obtain ⟨walk₁, hstep, hrest⟩ := bind_eq_ok.mp hok
      obtain ⟨r, rfl⟩ := eq_framed_of_validateRecord hstep
      obtain ⟨rs, rfl⟩ := ih hrest
      exact ⟨r :: rs, rfl⟩

theorem validateRecords_of_endSeen {h : DhilogHeader} {walk : RecordWalk} (walk' : RecordWalk)
    (rs : List Record) (hseen : walk.endSeen = true) :
    validateRecords h walk (rs.map framed) = .ok walk' ↔ rs = [] ∧ walk = walk' := by
  cases rs with
  | nil => simp [validateRecords]
  | cons r rs =>
      simp [validateRecords, bind_eq_ok, validateRecord_eq_ok, hseen]

theorem endsOnce_cons {h : DhilogHeader} {r : Record} {rs : List Record} :
    EndsOnce h (r :: rs) ↔
      (rs = [] ∧ r.IsEnd ∧ EndAllowed h r) ∨ (¬r.IsEnd ∧ EndsOnce h rs) := by
  constructor
  · rintro ⟨init, last, heq, hlast, hend, hinit⟩
    cases init with
    | nil =>
        obtain ⟨rfl, rfl⟩ : r = last ∧ rs = [] := by simpa using heq
        exact .inl ⟨rfl, hlast, hend⟩
    | cons r' init =>
        obtain ⟨rfl, rfl⟩ : r = r' ∧ rs = init ++ [last] := by simpa using heq
        exact .inr ⟨hinit r List.mem_cons_self, init, last, rfl, hlast, hend,
          fun q hq => hinit q (List.mem_cons_of_mem _ hq)⟩
  · rintro (⟨rfl, hlast, hend⟩ | ⟨hr, init, last, rfl, hlast, hend, hinit⟩)
    · exact ⟨[], r, rfl, hlast, hend, by simp⟩
    · exact ⟨r :: init, last, rfl, hlast, hend, by simpa using ⟨hr, hinit⟩⟩

/-- The grammar read one record at a time. -/
theorem walksFrom_cons {h : DhilogHeader} {walk : RecordWalk} {r : Record}
    {rs : List Record} :
    WalksFrom h walk (r :: rs) ↔
      RecordAllowed h r ∧ r.seq.toNat = walk.count ∧ walk.prevIcount ≤ r.icount ∧
        ((rs = [] ∧ r.IsEnd ∧ EndAllowed h r) ∨
          (¬r.IsEnd ∧ WalksFrom h ⟨walk.count + 1, r.icount, false⟩ rs)) := by
  constructor
  · intro hw
    refine ⟨hw.allowed r List.mem_cons_self, hw.seq 0 r rfl, hw.above r List.mem_cons_self, ?_⟩
    rcases endsOnce_cons.mp hw.terminal with hlast | ⟨hr, hrest⟩
    · exact .inl hlast
    · -- the walk goes on one number further and no lower than `r`
      obtain ⟨habove, hmono⟩ := List.pairwise_cons.mp hw.monotone
      refine .inr ⟨hr, ?_, habove, hmono,
        fun q hq => hw.allowed q (List.mem_cons_of_mem _ hq), hrest⟩
      intro i q hq
      have hseq := hw.seq (i + 1) q (by simpa using hq)
      simp only [hseq]
      omega
  · rintro ⟨hr, hseq, hprev, ⟨rfl, hlast, hend⟩ | ⟨hnot, hw⟩⟩
    · refine ⟨?_, by simpa using hprev, by simp, by simpa using hr,
        endsOnce_cons.mpr (.inl ⟨rfl, hlast, hend⟩)⟩
      intro i q hq
      cases i with
      | zero =>
          obtain rfl : r = q := by simpa using hq
          exact hseq
      | succ i => simp at hq
    · refine ⟨?_, ?_, List.pairwise_cons.mpr ⟨hw.above, hw.monotone⟩, ?_,
        endsOnce_cons.mpr (.inr ⟨hnot, hw.terminal⟩)⟩
      · intro i q hq
        cases i with
        | zero =>
            obtain rfl : r = q := by simpa using hq
            exact hseq
        | succ i =>
            have hq' := hw.seq i q (by simpa using hq)
            simp only [hq']
            omega
      · intro q hq
        rcases List.mem_cons.mp hq with rfl | hq
        · exact hprev
        · exact UInt64.le_trans hprev (hw.above q hq)
      · intro q hq
        rcases List.mem_cons.mp hq with rfl | hq
        · exact hr
        · exact hw.allowed q hq

/-- The loop of the validator ends having seen END and numbered `n` records
exactly when the stream obeys the grammar from where the loop stood. -/
theorem validateRecords_iff {h : DhilogHeader} {walk : RecordWalk} {rs : List Record}
    {n : Nat} (hseen : walk.endSeen = false) :
    (∃ walk', validateRecords h walk (rs.map framed) = .ok walk' ∧
        walk'.endSeen = true ∧ walk'.count = n) ↔
      WalksFrom h walk rs ∧ walk.count + rs.length = n := by
  induction rs generalizing walk with
  | nil =>
      have hnone : ¬WalksFrom h walk [] := by
        intro hw
        obtain ⟨init, last, heq, -⟩ := hw.terminal
        simp at heq
      simp [validateRecords, hseen, hnone]
  | cons r rs ih =>
      simp only [List.map_cons, validateRecords, bind_eq_ok, validateRecord_eq_ok, hseen,
        true_and, walksFrom_cons, List.length_cons]
      by_cases hend : r.IsEnd
      · -- after END the loop accepts nothing, so it is the last record
        have hseen' : RecordWalk.endSeen ⟨walk.count + 1, r.icount, decide r.IsEnd⟩ = true :=
          decide_eq_true hend
        have hlast := fun walk' => validateRecords_of_endSeen (h := h) walk' rs hseen'
        constructor
        · rintro ⟨walk', ⟨_, ⟨hr, hseq, hprev, hallowed, rfl⟩, hrest⟩, -, rfl⟩
          obtain ⟨rfl, rfl⟩ := (hlast _).mp hrest
          exact ⟨⟨hr, hseq, hprev, .inl ⟨rfl, hend, hallowed hend⟩⟩, rfl⟩
        · rintro ⟨⟨hr, hseq, hprev, ⟨rfl, -, hallowed⟩ | ⟨hnot, -⟩⟩, rfl⟩
          · exact ⟨_, ⟨_, ⟨hr, hseq, hprev, fun _ => hallowed, rfl⟩, (hlast _).mpr ⟨rfl, rfl⟩⟩,
              by simpa using hend, rfl⟩
          · exact absurd hend hnot
      · have hseen' : RecordWalk.endSeen ⟨walk.count + 1, r.icount, false⟩ = false := rfl
        have hrest := ih hseen'
        constructor
        · rintro ⟨walk', ⟨_, ⟨hr, hseq, hprev, -, rfl⟩, hwalk⟩, hdone⟩
          rw [decide_eq_false hend] at hwalk
          obtain ⟨hw, hcount⟩ := hrest.mp ⟨walk', hwalk, hdone⟩
          exact ⟨⟨hr, hseq, hprev, .inr ⟨hend, hw⟩⟩, by simp only at hcount; omega⟩
        · rintro ⟨⟨hr, hseq, hprev, ⟨-, hyes, -⟩ | ⟨-, hw⟩⟩, hcount⟩
          · exact absurd hyes hend
          · obtain ⟨walk', hwalk, hdone⟩ := hrest.mpr ⟨hw, by simp only; omega⟩
            refine ⟨walk', ⟨_, ⟨hr, hseq, hprev, fun hyes => absurd hyes hend, rfl⟩, ?_⟩, hdone⟩
            rw [decide_eq_false hend]
            exact hwalk

theorem sealedGrammar_iff {h : DhilogHeader} {rs : List Record} :
    SealedGrammar h rs ↔
      WalksFrom h RecordWalk.start rs ∧ RecordWalk.start.count + rs.length =
        h.recordCount.toNat := by
  simp only [RecordWalk.start, Nat.zero_add]
  constructor
  · intro hg
    exact ⟨⟨by simpa using hg.seq, fun r _ => UInt64.le_iff_toNat_le.mpr (Nat.zero_le _),
      hg.monotone, hg.allowed, hg.terminal⟩, hg.count⟩
  · rintro ⟨hw, hcount⟩
    exact ⟨hcount, by simpa using hw.seq, hw.monotone, hw.allowed, hw.terminal⟩

/-! ### The validator decides the grammar -/

section Validator

variable (blake3 : Bytes → Bytes32)

theorem decodeEnd_ne_panic (payload : Bytes) : decodeEnd payload ≠ .panic := by
  intro hp
  simp only [decodeEnd, bind_eq_panic, rejectIf_ne_panic, rejectIf_eq_ok, not_not,
    false_or, pure_eq, reduceCtorEq, and_false, exists_false, or_false] at hp
  obtain ⟨_, hlen, hkind | ⟨_, -, hhash⟩⟩ := hp
  · rw [List.getElem?_eq_getElem (by omega)] at hkind
    simp at hkind
  · obtain ⟨s, hs, hslen⟩ := exists_slice (ε := DhilogError) payload 8 (8 + 32) (by omega)
      (by omega)
    simp [bytes32At, hs, Bytes32.ofSlice, hslen] at hhash

theorem validateRecord_ne_panic (h : DhilogHeader) (walk : RecordWalk) (item : RecordItem) :
    validateRecord h walk item ≠ .panic := by
  cases item with
  | error e => simp [validateRecord]
  | ok x =>
      obtain ⟨r, framing⟩ := x
      have hend : validateEnd h r ≠ .panic := by
        intro hp
        cases hd : decodeEnd r.payload with
        | ok terminal => simp [validateEnd, hd, mapErr, bind_eq_panic] at hp
        | err e => simp [validateEnd, hd, mapErr] at hp
        | panic => exact decodeEnd_ne_panic _ hd
      intro hp
      simp only [validateRecord, bind_eq_panic, rejectIf_ne_panic, rejectIf_eq_ok,
        false_or, exists_and_left, exists_const] at hp
      obtain ⟨-, -, -, -, -, -, -, -, -, -, hp⟩ := hp
      split at hp
      · simp [bind_eq_panic, hend] at hp
      · simp at hp

theorem validateRecords_ne_panic (h : DhilogHeader) (walk : RecordWalk)
    (items : List RecordItem) : validateRecords h walk items ≠ .panic := by
  induction items generalizing walk with
  | nil => simp [validateRecords]
  | cons item items ih =>
      simp [validateRecords, bind_eq_panic, validateRecord_ne_panic, ih]

theorem DhilogSegment.header_le_length (segment : DhilogSegment) :
    dhilogHeaderLen ≤ segment.bytes.length := by
  have hparsed := segment.parsed
  simp only [parseHeader, bind_eq_ok, rejectIf_eq_ok] at hparsed
  obtain ⟨-, hlen, -⟩ := hparsed
  omega

theorem DhilogSegment.slice_body (segment : DhilogSegment) {ε : Type} :
    (slice segment.bytes dhilogHeaderLen segment.bytes.length : Outcome ε Bytes) =
      .ok (segment.bytes.drop dhilogHeaderLen) := by
  have hlen := segment.header_le_length
  refine slice_of_sitsAt ?_ (by rw [List.length_drop]; omega)
  rw [show dhilogHeaderLen = dhilogHeaderLen + 0 from rfl, ← sitsAt_drop hlen]
  exact sitsAt_self _

theorem validateStructure_ne_panic (segment : DhilogSegment) :
    validateStructure blake3 segment ≠ .panic := by
  obtain ⟨items, hitems, -⟩ := segment.records_eq_ok (ε := StructuralIssue)
  simp [validateStructure, bind_eq_panic, segment.slice_body, hitems, validateRecords_ne_panic]

theorem rule_of_validateRecord {h : DhilogHeader} {walk : RecordWalk} {item : RecordItem}
    {issue : StructuralIssue} (herr : validateRecord h walk item = .err issue) :
    issue.rule = .r4 ∨ issue.rule = .r5 := by
  cases item with
  | error e =>
      obtain rfl := Outcome.err.inj herr
      exact .inl rfl
  | ok x =>
      obtain ⟨r, framing⟩ := x
      have hend : ∀ issue, validateEnd h r = .err issue → issue.rule = .r4 ∨ issue.rule = .r5 := by
        intro issue he
        cases hd : decodeEnd r.payload with
        | ok terminal =>
            simp only [validateEnd, hd, mapErr, ok_bind, bind_eq_err, rejectIf_eq_err] at he
            rcases he with ⟨-, rfl⟩ | ⟨_, -, -, rfl⟩ <;> simp [issueR4, issueR5]
        | err e =>
            simp only [validateEnd, hd, mapErr, err_bind, Outcome.err.injEq] at he
            subst he
            exact .inl rfl
        | panic => exact absurd hd (decodeEnd_ne_panic _)
      simp only [validateRecord, bind_eq_err, rejectIf_eq_err] at herr
      rcases herr with ⟨-, rfl⟩ | ⟨_, -, ⟨-, rfl⟩ | ⟨_, -, ⟨-, rfl⟩ | ⟨_, -, ⟨-, rfl⟩ | ⟨_, -,
        ⟨-, rfl⟩ | ⟨_, -, ⟨-, rfl⟩ | ⟨_, -, ⟨-, rfl⟩ | ⟨_, -, ⟨-, rfl⟩ | ⟨_, -, ⟨-, rfl⟩ | ⟨_, -,
        ⟨-, rfl⟩ | ⟨_, -, hlast⟩⟩⟩⟩⟩⟩⟩⟩⟩⟩
      case inr.inr.inr.inr.inr.inr.inr.inr.inr.inr =>
        split at hlast
        · simp only [bind_eq_err, pure_eq, reduceCtorEq, and_false, exists_false,
            or_false] at hlast
          exact hend issue hlast
        · cases hlast
      all_goals simp [issueR4, issueR5]

theorem rule_of_validateRecords {h : DhilogHeader} {walk : RecordWalk}
    {items : List RecordItem} {issue : StructuralIssue}
    (herr : validateRecords h walk items = .err issue) :
    issue.rule = .r4 ∨ issue.rule = .r5 := by
  induction items generalizing walk with
  | nil => cases herr
  | cons item items ih =>
      rcases bind_eq_err.mp herr with hstep | ⟨walk', -, hrest⟩
      · exact rule_of_validateRecord hstep
      · exact ih hrest

theorem rule_of_validateStructure {segment : DhilogSegment} {issue : StructuralIssue}
    (herr : validateStructure blake3 segment = .err issue) :
    issue.rule = .r4 ∨ issue.rule = .r5 := by
  obtain ⟨items, hitems, -⟩ := segment.records_eq_ok (ε := StructuralIssue)
  simp only [validateStructure, segment.slice_body, hitems, ok_bind, bind_eq_err,
    rejectIf_eq_err] at herr
  rcases herr with ⟨-, rfl⟩ | ⟨_, -, ⟨-, rfl⟩ | ⟨_, -, ⟨-, rfl⟩ | ⟨_, -, hwalk | ⟨_, -,
    ⟨-, rfl⟩ | ⟨_, -, -, rfl⟩⟩⟩⟩⟩
  case inr.inr.inr.inl => exact rule_of_validateRecords hwalk
  all_goals simp [issueR4]

/-- A segment whose header is sealed and hashed and whose body is a stream
of the grammar. -/
structure SealedSegment (segment : DhilogSegment) (rs : List Record) : Prop where
  isSealed : segment.header.flags &&& flagSealed ≠ 0
  hash_ne_zero : segment.header.endStateHash ≠ Bytes32.zero
  body_hash : blake3 (segment.bytes.drop dhilogHeaderLen) = segment.header.bodyHash
  body : segment.bytes.drop dhilogHeaderLen = rs.flatMap Record.encode
  grammar : SealedGrammar segment.header rs

theorem SealedGrammar.payload_lt {h : DhilogHeader} {rs : List Record}
    (hg : SealedGrammar h rs) : ∀ r ∈ rs, r.payload.length < 2 ^ 16 := by
  intro r hr
  have hle := (hg.allowed r hr).payload_le
  omega

theorem SealedSegment.records_eq {segment : DhilogSegment} {rs : List Record} {ε : Type}
    (hs : SealedSegment blake3 segment rs) :
    (segment.records : Outcome ε _) = .ok (rs.map framed) := by
  obtain ⟨items, hitems, hspec⟩ := segment.records_eq_ok (ε := ε)
  rw [hitems, (hspec rs).mpr ⟨hs.body, hs.grammar.payload_lt⟩]

theorem SealedSegment.mem_of_item {segment : DhilogSegment} {rs : List Record} {ε : Type}
    (hs : SealedSegment blake3 segment rs) {items : List RecordItem}
    (hitems : (segment.records : Outcome ε _) = .ok items) {item : RecordItem}
    (hmem : item ∈ items) : ∃ r ∈ rs, item = framed r := by
  obtain rfl : rs.map framed = items := Outcome.ok.inj (hs.records_eq.symm.trans hitems)
  obtain ⟨r, hr, rfl⟩ := List.mem_map.mp hmem
  exact ⟨r, hr, rfl⟩

/-- The validator accepts the segments of the grammar. -/
theorem validateStructure_eq_ok (segment : DhilogSegment) :
    validateStructure blake3 segment = .ok () ↔ ∃ rs, SealedSegment blake3 segment rs := by
  obtain ⟨items, hitems, hspec⟩ := segment.records_eq_ok (ε := StructuralIssue)
  simp only [validateStructure, bind_eq_ok, rejectIf_eq_ok, not_not, exists_and_left,
    exists_const, segment.slice_body, Outcome.ok.injEq, exists_eq_left', hitems,
    Bool.not_eq_false]
  constructor
  · rintro ⟨hsealed, hhash, hbody, walk, hwalk, hseen, hcount⟩
    obtain ⟨rs, hrs⟩ := eq_map_framed_of_validateRecords hwalk
    rw [hrs] at hwalk
    have hgrammar := sealedGrammar_iff.mpr
      ((validateRecords_iff rfl).mp ⟨walk, hwalk, hseen, hcount⟩)
    exact ⟨rs, hsealed, hhash, hbody, ((hspec rs).mp hrs).1, hgrammar⟩
  · rintro ⟨rs, hs⟩
    have hrs := (hspec rs).mpr ⟨hs.body, hs.grammar.payload_lt⟩
    obtain ⟨walk, hwalk, hseen, hcount⟩ :=
      (validateRecords_iff rfl).mpr (sealedGrammar_iff.mp hs.grammar)
    exact ⟨hs.isSealed, hs.hash_ne_zero, hs.body_hash, walk, by rw [hrs]; exact hwalk, hseen,
      hcount⟩

/-- `validate_structure` accepts exactly the sealed grammar, and the record
list it accepts is the one the iterator yields. -/
theorem validateStructure_iff_sealedSegment (segment : DhilogSegment) :
    (validateStructure blake3 segment = .ok () ↔ ∃ rs, SealedSegment blake3 segment rs) ∧
      ∀ rs, SealedSegment blake3 segment rs →
        (segment.records : Outcome StructuralIssue _) = .ok (rs.map framed) :=
  ⟨validateStructure_eq_ok blake3 segment, fun _ hs => hs.records_eq⟩

end Validator

end ReplayRenderer
