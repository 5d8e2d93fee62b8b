import ReplayRenderer.Frames.Pack
import ReplayRenderer.Lib.Blake3

/-!
What reading a pack returns. The reader fails on a bad header only. A finished
pack reads back as it was written; a cut one is torn, whatever bytes the cut
leaves at its end.
-/

namespace ReplayRenderer

open Lib Lib.Outcome

section Total

variable {b : Bytes}

/-! ### Totality -/

structure ValidRfpHeader (b : Bytes) : Prop where
  length_le : rfpHeaderLen ≤ b.length
  magic : SitsAt b 0 rfpMagic
  version : SitsAt b 8 (le32 2)
  pixFmt : SitsAt b 32 [0] ∨ SitsAt b 32 [1] ∨ SitsAt b 32 [2]

theorem readRfpHeader_cases (b : Bytes) :
    (∃ h, readRfpHeader b = .ok h ∧ ValidRfpHeader b) ∨
      ∃ e, readRfpHeader b = .err e ∧ ¬ValidRfpHeader b := by
  by_cases hlen : b.length < rfpHeaderLen
  · refine .inr ⟨.truncated "shorter than the 60-byte header", ?_,
      fun h => absurd h.length_le (not_le.mpr hlen)⟩
    rw [readRfpHeader, rejectIf_pos hlen, err_bind]
  have h60 : rfpHeaderLen = 60 := rfl
  -- 60 bytes hold every field, so only their values can be refused
  obtain ⟨magic, hmagicLen, hmagic⟩ := exists_sitsAt b 0 8 (by omega)
  have hslice : (slice b 0 8 : Outcome RfpError Bytes) = .ok magic :=
    slice_of_sitsAt hmagic (by omega)
  obtain ⟨version, hversion⟩ := exists_sitsAt_le32 b 8 (by omega)
  obtain ⟨pixFmt, hpixFmt⟩ := exists_sitsAt_byte b 32 (by omega)
  by_cases hmagicEq : magic = rfpMagic
  · by_cases hversionEq : version = 2
    · subst hmagicEq hversionEq
      obtain ⟨flags, hflags⟩ := exists_sitsAt_le32 b 12 (by omega)
      obtain ⟨gpa, hgpa⟩ := exists_sitsAt_le64 b 16 (by omega)
      obtain ⟨width, hwidth⟩ := exists_sitsAt_le16 b 24 (by omega)
      obtain ⟨height, hheight⟩ := exists_sitsAt_le16 b 26 (by omega)
      obtain ⟨stride, hstride⟩ := exists_sitsAt_le32 b 28 (by omega)
      cases hformat : pixFmtFromU8 pixFmt with
      | ok f =>
          obtain ⟨pad, hpadLen, hpad⟩ := exists_sitsAt b 33 3 (by omega)
          obtain ⟨num, hnum⟩ := exists_sitsAt_le32 b 36 (by omega)
          obtain ⟨den, hden⟩ := exists_sitsAt_le32 b 40 (by omega)
          obtain ⟨job, hjobLen, hjob⟩ := exists_sitsAt b 44 16 (by omega)
          refine .inl ⟨⟨flags, ⟨gpa, width, height, stride, f⟩, num, den,
            ⟨job, hjobLen⟩⟩, ?_, not_lt.mp hlen, hmagic, hversion, ?_⟩
          · refine readRfpHeader_eq_ok.mpr ⟨pixFmt, pad, pixFmtFromU8_eq_ok.mp hformat, hpadLen, ?_⟩
            rw [sitsAt_rfpHeader hpadLen]
            exact ⟨hmagic, hversion, hflags, hgpa, hwidth, hheight, hstride, hpixFmt, hpad, hnum,
              hden, hjob⟩
          · unfold pixFmtFromU8 at hformat
            split_ifs at hformat with h0 h1 h2
            · exact .inl (h0 ▸ hpixFmt)
            · exact .inr (.inl (h1 ▸ hpixFmt))
            · exact .inr (.inr (h2 ▸ hpixFmt))
      | err e =>
          -- an unknown format is found after every field ahead of it was read
          refine .inr ⟨e, ?_, ?_⟩
          · rw [readRfpHeader, rejectIf_neg hlen, ok_bind, hslice, ok_bind,
              rejectIf_neg (not_not.mpr rfl), ok_bind, u32At_eq_ok.mpr hversion, ok_bind,
              rejectIf_neg (not_not.mpr rfl), ok_bind, u32At_eq_ok.mpr hflags, ok_bind,
              u64At_eq_ok.mpr hgpa, ok_bind, u16At_eq_ok.mpr hwidth, ok_bind,
              u16At_eq_ok.mpr hheight, ok_bind, u32At_eq_ok.mpr hstride, ok_bind,
              getElem?_eq_some_iff_sitsAt.mpr hpixFmt, expect_some, ok_bind, hformat, err_bind]
          · intro h
            have hknown : pixFmt = 0 ∨ pixFmt = 1 ∨ pixFmt = 2 :=
              h.pixFmt.imp hpixFmt.byte_inj (Or.imp hpixFmt.byte_inj hpixFmt.byte_inj)
            unfold pixFmtFromU8 at hformat
            rcases hknown with rfl | rfl | rfl <;> cases hformat
      | panic =>
          unfold pixFmtFromU8 at hformat
          split_ifs at hformat
    · refine .inr ⟨.unsupportedVersion version, ?_,
        fun h => hversionEq (hversion.le32_inj h.version)⟩
      rw [readRfpHeader, rejectIf_neg hlen, ok_bind, hslice, ok_bind,
        rejectIf_neg (not_not.mpr hmagicEq), ok_bind, u32At_eq_ok.mpr hversion, ok_bind,
        rejectIf_pos hversionEq, err_bind]
  · refine .inr ⟨.badMagic, ?_,
      fun h => hmagicEq (hmagic.unique h.magic (by rw [hmagicLen, length_rfpMagic]))⟩
    rw [readRfpHeader, rejectIf_neg hlen, ok_bind, hslice, ok_bind, rejectIf_pos hmagicEq, err_bind]

theorem readRfpHeader_take (b : Bytes) : readRfpHeader (b.take rfpHeaderLen) = readRfpHeader b := by
  have h60 : rfpHeaderLen = 60 := rfl
  have hlen : ((b.take rfpHeaderLen).length < rfpHeaderLen) = (b.length < rfpHeaderLen) := by
    rw [List.length_take]
    apply propext
    omega
  have hbyte : (b.take rfpHeaderLen)[32]? = b[32]? := List.getElem?_take_of_lt (by omega)
  simp only [readRfpHeader, u16At, u32At, u64At, bytes16At, rejectIf, hlen, hbyte]
  simp (disch := omega) only [slice_take]

end Total

/-- The reader fails on a bad header only, which is a matter of the first 60
bytes; on all other input it returns the records that stand in a row behind
the header, up to the first place where they do not, or the footer. -/
theorem readRfp_degrades (blake3 : Bytes → Bytes32) (b : Bytes) :
    (∀ e, readRfp blake3 b = .err e ↔ readRfpHeader (b.take rfpHeaderLen) = .err e) ∧
      ((¬ValidRfpHeader b ∧ ∃ e, readRfp blake3 b = .err e) ∨
        (ValidRfpHeader b ∧ ∃ out zoneEnd stop framingOk, readRfp blake3 b = .ok out ∧
          PackRead blake3 b out zoneEnd stop framingOk)) := by
  rcases readRfpHeader_cases b with ⟨h, hh, hvalid⟩ | ⟨e, he, hinvalid⟩
  · obtain ⟨out, zoneEnd, stop, ok, hread, -, hpack⟩ := readRfp_spec blake3 hh
    refine ⟨fun e => ?_, .inr ⟨hvalid, out, zoneEnd, stop, ok, hread, hpack⟩⟩
    rw [readRfpHeader_take, hread, hh]
    simp
  · have hread : readRfp blake3 b = .err e := by
      rw [readRfp, he, err_bind]
    refine ⟨fun e' => ?_, .inl ⟨hinvalid, e, hread⟩⟩
    rw [readRfpHeader_take, hread, he]
    simp

theorem packRead_of_readRfp {blake3 : Bytes → Bytes32} {b : Bytes} {out : RfpReadOutcome}
    (h : readRfp blake3 b = .ok out) :
    readRfpHeader b = .ok out.header ∧
      ∃ zoneEnd stop framingOk, PackRead blake3 b out zoneEnd stop framingOk := by
  rcases readRfpHeader_cases b with ⟨header, hh, -⟩ | ⟨e, he, -⟩
  · obtain ⟨out', zoneEnd, stop, ok, hread, rfl, hpack⟩ := readRfp_spec blake3 hh
    obtain rfl : out' = out := Outcome.ok.inj (hread.symm.trans h)
    exact ⟨hh, zoneEnd, stop, ok, hpack⟩
  · rw [readRfp, he, err_bind] at h
    cases h

/-! ### Two packs with a common prefix -/

section Prefix

variable {b : Bytes} {zoneEnd zoneEnd' off : Nat}

theorem RecordAt.of_cut {b' : Bytes} {r : RfpRecord} (h : RecordAt b zoneEnd off r)
    (hb : b <+: b') : RecordAt b' zoneEnd off r := by
  obtain ⟨pad, hpad, hsits⟩ := h.sits
  exact ⟨h.len_lt, h.fits, pad, hpad, hsits.of_cut hb⟩

theorem RecordsAt.of_cut {b' : Bytes} (hb : b <+: b') {rs : List RfpRecord} {stop : Nat} :
    ∀ {off : Nat}, RecordsAt b zoneEnd off rs stop → RecordsAt b' zoneEnd off rs stop := by
  induction rs with
  | nil => exact id
  | cons r rs ih => exact fun ⟨hr, hrs⟩ => ⟨hr.of_cut hb, ih hrs⟩

/-- One record stands at one offset, wherever the zone is taken to end. -/
theorem RecordAt.unique {r r' : RfpRecord} (h : RecordAt b zoneEnd off r)
    (h' : RecordAt b zoneEnd' off r') : r = r' := by
  obtain ⟨pad, hpad, hsits⟩ := h.sits
  obtain ⟨pad', hpad', hsits'⟩ := h'.sits
  obtain ⟨hframe, hsegment, hcomp, -, hicount, hlen, hbytes⟩ := (sitsAt_rfpRecord hpad).mp hsits
  obtain ⟨hframe', hsegment', hcomp', -, hicount', hlen', hbytes'⟩ :=
    (sitsAt_rfpRecord hpad').mp hsits'
  have hlength : r.bytes.length = r'.bytes.length := by
    rw [← UInt32.toNat_ofNat_of_lt' h.len_lt, hlen.le32_inj hlen',
      UInt32.toNat_ofNat_of_lt' h'.len_lt]
  have hcompEq : r.comp = r'.comp :=
    Option.some.inj ((Comp.fromU8_eq_some.mpr (hcomp.byte_inj hcomp')).symm.trans
      (Comp.fromU8_eq_some.mpr rfl))
  rw [RfpRecord.mk.injEq]
  exact ⟨hframe.le64_inj hframe', hsegment.le32_inj hsegment', hcompEq, hicount.le64_inj hicount',
    hbytes.unique hbytes' hlength⟩

theorem RecordsAt.unique_at {rs rs' : List RfpRecord} {stop stop' : Nat} :
    ∀ {off : Nat}, RecordsAt b zoneEnd off rs stop → RecordsAt b zoneEnd' off rs' stop' →
      ∀ (i : Nat) (r r' : RfpRecord), rs[i]? = some r → rs'[i]? = some r' → r = r' := by
  induction rs generalizing rs' with
  | nil => simp
  | cons q rs ih =>
      intro off hrs hrs' i r r' hr hr'
      cases rs' with
      | nil => simp at hr'
      | cons q' rs' =>
          obtain rfl : q = q' := hrs.1.unique hrs'.1
          cases i with
          | zero => exact Option.some.inj (hr.symm.trans hr')
          | succ i => exact ih hrs.2 hrs'.2 i r r' hr hr'

/-- Where the shorter of two rows ends, a record of the longer one begins. -/
theorem RecordsAt.next {rs rs' : List RfpRecord} {stop stop' : Nat} :
    ∀ {off : Nat}, RecordsAt b zoneEnd off rs stop → RecordsAt b zoneEnd' off rs' stop' →
      stop < stop' → ∃ r ∈ rs', RecordAt b zoneEnd' stop r := by
  induction rs generalizing rs' with
  | nil =>
      rintro off rfl hrs' hlt
      cases rs' with
      | nil =>
          obtain rfl : stop' = stop := hrs'
          exact absurd hlt (lt_irrefl _)
      | cons r' rs' => exact ⟨r', List.mem_cons_self .., hrs'.1⟩
  | cons r rs ih =>
      intro off hrs hrs' hlt
      cases rs' with
      | nil =>
          obtain rfl : stop' = off := hrs'
          have hle := hrs.bounds.1
          omega
      | cons r' rs' =>
          obtain rfl : r = r' := hrs.1.unique hrs'.1
          obtain ⟨q, hq, hat⟩ := ih hrs.2 hrs'.2 hlt
          exact ⟨q, List.mem_cons_of_mem r hq, hat⟩

/-- What the loop reads is determined by what stands there. -/
theorem RecordsAt.unique {rs rs' : List RfpRecord} {stop stop' : Nat} {ok ok' : Bool}
    (hzone : zoneEnd ≤ b.length) (h : RecordsAt b zoneEnd off rs stop)
    (hstop : StopsAt b zoneEnd stop ok) (h' : RecordsAt b zoneEnd off rs' stop')
    (hstop' : StopsAt b zoneEnd stop' ok') : rs = rs' ∧ ok = ok' := by
  have hfuel : zoneEnd ≤ off + zoneEnd := Nat.le_add_left ..
  have hread : (.ok (rs, ok) : Outcome Empty _) = .ok (rs', ok') := by
    rw [← readRecords_of_recordsAt hzone hstop hfuel h,
      readRecords_of_recordsAt hzone hstop' hfuel h']
  exact Prod.mk.inj (Outcome.ok.inj hread)

end Prefix

theorem PackRead.stop_eq {blake3 : Bytes → Bytes32} {b : Bytes} {out : RfpReadOutcome}
    {zoneEnd stop : Nat} (h : PackRead blake3 b out zoneEnd stop true)
    (hstart : rfpHeaderLen ≤ zoneEnd) : stop = zoneEnd := by
  cases h.stops with
  | zone hend =>
      cases hrs : out.records with
      | nil =>
          have hrow := h.records
          rw [hrs] at hrow
          obtain rfl : stop = rfpHeaderLen := hrow
          exact le_antisymm hstart hend
      | cons r rs => exact le_antisymm (h.records.bounds.2 (by simp [hrs])) hend

theorem FooterAt.unique {blake3 : Bytes → Bytes32} {b : Bytes} {fs fs' : Nat}
    (h : FooterAt blake3 b fs) (h' : FooterAt blake3 b fs') : fs = fs' :=
  Nat.add_right_cancel (h.length_eq.symm.trans h'.length_eq)

theorem ZoneEnd.eq_of_footerAt {blake3 : Bytes → Bytes32} {b : Bytes} {zoneEnd fs : Nat}
    (h : ZoneEnd blake3 b zoneEnd) (hfooter : FooterAt blake3 b fs) : zoneEnd = fs := by
  rcases h with h | ⟨hnone, -⟩
  · exact h.unique hfooter
  · exact absurd hfooter (hnone fs)

/-! ### Round trip -/

section RoundTrip

variable (blake3 : Bytes → Bytes32) {records : List RfpRecord}

structure PackAt (blake3 : Bytes → Bytes32) (b : Bytes) (header : RfpHeader) (pixFmt : UInt8)
    (records : List RfpRecord) (flag : UInt8) (fs : Nat) : Prop where
  headerAt : SitsAt b 0 (header.encode pixFmt (zeros 3))
  recordsAt : RecordsAt b fs rfpHeaderLen records fs
  footerAt : FooterAt blake3 b fs
  countAt : SitsAt b (fs + 8) (le64 (UInt64.ofNat records.length))
  flagAt : SitsAt b (fs + 16) [flag]

theorem packAt_packBytes (header : RfpHeader) (pixFmt : UInt8)
    (hlen : ∀ r ∈ records, r.bytes.length < 2 ^ 32) (complete : Bool) :
    ∃ fs, PackAt blake3 (packBytes blake3 header pixFmt records complete) header pixFmt records
      (if complete then 1 else 0) fs := by
  generalize hb : packBytes blake3 header pixFmt records complete = b
  generalize hflag : (if complete then 1 else 0 : UInt8) = flag
  generalize hbody : header.encode pixFmt (zeros 3) ++
    (records.flatMap fun r => r.encode (zeros 3)) = body
  have hpack : b = body ++ rfpFooter (UInt64.ofNat records.length) flag (blake3 body) := by
    rw [← hb, packBytes, hflag]
    simp only [hbody]
  have hbodyAt : SitsAt b 0 body := ⟨[], _, hpack, rfl⟩
  have hfooterSits : SitsAt b body.length
      (rfpFooter (UInt64.ofNat records.length) flag (blake3 body)) :=
    ⟨body, [], by simpa using hpack, rfl⟩
  have hfooterAt := sitsAt_rfpFooter.mp hfooterSits
  have htake : b.take body.length = body := by
    rw [hpack, List.take_left]
  rw [← hbody, sitsAt_append, RfpHeader.length_encode (by simp), Nat.zero_add] at hbodyAt
  have hstop : body.length = rfpHeaderLen +
      (records.flatMap fun r => r.encode (zeros 3)).length := by
    rw [← hbody, List.length_append, RfpHeader.length_encode (by simp)]
  refine ⟨body.length, hbodyAt.1, ?_, ⟨?_, hfooterAt.1, ?_⟩, hfooterAt.2.1, hfooterAt.2.2.1⟩
  · have hrow := recordsAt_of_flatMap hlen hbodyAt.2 hstop.ge
    rwa [← hstop] at hrow
  · rw [hpack, List.length_append, length_rfpFooter]
  · rw [htake]
    exact hfooterAt.2.2.2

variable {header : RfpHeader} {pixFmt flag : UInt8} {b : Bytes} {fs : Nat}

theorem PackAt.readRfpHeader (h : PackAt blake3 b header pixFmt records flag fs)
    (hformat : pixFmtToU8 header.desc.pixelFormat = .ok pixFmt) {b' : Bytes} (hb : b' <+: b)
    (hlen : rfpHeaderLen ≤ b'.length) : readRfpHeader b' = .ok header := by
  have htake : b'.take rfpHeaderLen = b.take rfpHeaderLen := by
    obtain ⟨t, rfl⟩ := hb
    rw [List.take_append_of_le_length hlen]
  rw [← readRfpHeader_take, htake, readRfpHeader_take]
  exact readRfpHeader_eq_ok.mpr ⟨pixFmt, zeros 3, hformat, by simp, h.headerAt⟩

/-- A finished pack reads back, and is resumable if its flag is set. -/
theorem PackAt.readRfp (h : PackAt blake3 b header pixFmt records flag fs)
    (hformat : pixFmtToU8 header.desc.pixelFormat = .ok pixFmt) :
    ReplayRenderer.readRfp blake3 b =
      .ok (if flag = 1 then .complete header records else .torn header records) := by
  have hlen := h.headerAt.le_length
  rw [RfpHeader.length_encode (by simp), Nat.zero_add] at hlen
  obtain ⟨out, zoneEnd, stop, ok, hread, hheader, hpack⟩ :=
    readRfp_spec blake3 (h.readRfpHeader blake3 hformat (List.prefix_refl b) hlen)
  obtain rfl : zoneEnd = fs := hpack.zone.eq_of_footerAt h.footerAt
  have hstop : StopsAt b zoneEnd zoneEnd true := .zone (le_refl _)
  obtain ⟨hrecords, rfl⟩ :=
    hpack.records.unique hpack.zone.le_length hpack.stops h.recordsAt hstop
  have hiff : out.resumable = true ↔ flag = 1 := by
    rw [hpack.resumable_iff, hrecords]
    constructor
    · rintro ⟨-, -, -, hone⟩
      exact h.flagAt.byte_inj hone
    · rintro rfl
      exact ⟨h.footerAt, rfl, h.countAt, h.flagAt⟩
  rw [hread]
  split
  · rename_i hone
    rw [RfpReadOutcome.eq_complete (hiff.mpr hone), hheader, hrecords]
  · rename_i hone
    have htorn : out.resumable = false := Bool.eq_false_iff.mpr (mt hiff.mp hone)
    rw [RfpReadOutcome.eq_torn htorn, hheader, hrecords]

/-- No record begins with the end magic: a frame index is below `2 ^ 32`. -/
theorem RecordAt.not_endMagic {zoneEnd off : Nat} {r : RfpRecord} (h : RecordAt b zoneEnd off r)
    (hframe : r.frameIndex.toNat < 2 ^ 32) : ¬SitsAt b off rfpEndMagic := by
  intro hmagic
  obtain ⟨pad, hpad, hsits⟩ := h.sits
  have hend : rfpEndMagic = le64 0x0000444E45504652 := by decide
  rw [hend] at hmagic
  have heq := ((sitsAt_rfpRecord hpad).mp hsits).1.le64_inj hmagic
  rw [heq] at hframe
  exact absurd hframe (by decide)

/-- A cut pack is torn: were the last bytes of the cut a footer, the records
would end there, and the next record of the pack would begin with the end
magic. -/
theorem PackAt.readRfp_cut (h : PackAt blake3 b header pixFmt records flag fs)
    (hformat : pixFmtToU8 header.desc.pixelFormat = .ok pixFmt)
    (hframe : ∀ r ∈ records, r.frameIndex.toNat < 2 ^ 32) {cut : Bytes} (hcut : cut <+: b)
    (hne : cut ≠ b) (hlen : rfpHeaderLen + rfpFooterLen ≤ cut.length) :
    ∃ rs, ReplayRenderer.readRfp blake3 cut = .ok (.torn header rs) ∧
      ∀ (i : Nat) (r r₀ : RfpRecord), rs[i]? = some r → records[i]? = some r₀ → r = r₀ := by
  obtain ⟨out, zoneEnd, stop, ok, hread, hheader, hpack⟩ :=
    readRfp_spec blake3 (h.readRfpHeader blake3 hformat hcut (by omega))
  have hrecords : RecordsAt b zoneEnd rfpHeaderLen out.records stop :=
    hpack.records.of_cut hcut
  have htorn : out.resumable = false := by
    by_contra hresumable
    obtain ⟨hfooter, rfl, -, -⟩ := hpack.resumable_iff.mp (Bool.eq_true_of_not_eq_false hresumable)
    have hshort : cut.length < b.length :=
      lt_of_le_of_ne hcut.length_le (mt hcut.eq_of_length hne)
    rw [hfooter.length_eq] at hshort hlen
    rw [h.footerAt.length_eq] at hshort
    rw [hpack.stop_eq (by omega)] at hrecords
    obtain ⟨r, hr, hat⟩ := hrecords.next h.recordsAt (by omega)
    exact hat.not_endMagic (hframe r hr) (hfooter.magic.of_cut hcut)
  refine ⟨out.records, ?_, fun i r r₀ => hrecords.unique_at h.recordsAt i r r₀⟩
  rw [hread, RfpReadOutcome.eq_torn htorn, hheader]
  rfl

end RoundTrip

/-- A finished pack reads back as it was written, resumable if it was
finished as complete; cut short it is torn. -/
theorem readRfp_writeRfp (blake3 : Bytes → Bytes32) (header : RfpHeader)
    (records : List RfpRecord) (complete : Bool) {pixFmt : UInt8}
    (hformat : pixFmtToU8 header.desc.pixelFormat = .ok pixFmt)
    (hlen : ∀ r ∈ records, r.bytes.length < 2 ^ 32) :
    ∃ pack, writeRfp blake3 header records complete = .ok pack ∧
      readRfp blake3 pack =
        .ok (if complete then .complete header records else .torn header records) ∧
      ((∀ r ∈ records, r.frameIndex.toNat < 2 ^ 32) → ∀ cut, cut <+: pack → cut ≠ pack →
        rfpHeaderLen + rfpFooterLen ≤ cut.length →
          ∃ rs, readRfp blake3 cut = .ok (.torn header rs) ∧
            ∀ (i : Nat) (r r₀ : RfpRecord), rs[i]? = some r → records[i]? = some r₀ → r = r₀) := by
  obtain ⟨fs, hpack⟩ := packAt_packBytes blake3 header pixFmt hlen complete
  refine ⟨_, writeRfp_eq_ok.mpr ⟨pixFmt, hformat, rfl⟩, ?_, fun hframe cut hcut hne hcutLen =>
    hpack.readRfp_cut blake3 hformat hframe hcut hne hcutLen⟩
  rw [hpack.readRfp blake3 hformat]
  cases complete <;> rfl

def rgbHeader : RfpHeader where
  flags := 0
  desc := ⟨0x10000, 2, 1, 4, .rgb555Le⟩
  clockNum := 1
  clockDen := 1
  jobId := ⟨zeros 16, by simp⟩

def rgbFrame : RfpRecord where
  frameIndex := 1
  segmentIndex := 0
  comp := .raw
  icount := 4096
  bytes := [0xFF, 0x7F, 0x00, 0x7C]

theorem readRfp_writeRfp_rgbFrame :
    ∃ pack, writeRfp Blake3.hash rgbHeader [rgbFrame] true = .ok pack ∧
      readRfp Blake3.hash pack = .ok (.complete rgbHeader [rgbFrame]) ∧
        ∃ rs, readRfp Blake3.hash pack.dropLast = .ok (.torn rgbHeader rs) := by
  have hformat : pixFmtToU8 rgbHeader.desc.pixelFormat = .ok 0 := rfl
  obtain ⟨pack, hwrite, hread, hcut⟩ :=
    readRfp_writeRfp Blake3.hash rgbHeader [rgbFrame] true hformat (by decide)
  have hlen : pack.length = 141 := by
    obtain ⟨pixFmt, -, rfl⟩ := writeRfp_eq_ok.mp hwrite
    rw [packBytes]
    simp only [List.length_append, length_rfpFooter, RfpHeader.length_encode (length_zeros 3),
      List.flatMap_singleton, RfpRecord.length_encode (length_zeros 3)]
    rfl
  have hcutLen : pack.dropLast.length = 140 := by rw [List.length_dropLast, hlen]
  obtain ⟨rs, htorn, -⟩ := hcut (by decide) pack.dropLast pack.dropLast_prefix
    (fun heq => by simp [heq, hlen] at hcutLen) (by rw [hcutLen]; decide)
  exact ⟨pack, hwrite, hread, rs, htorn⟩

end ReplayRenderer
