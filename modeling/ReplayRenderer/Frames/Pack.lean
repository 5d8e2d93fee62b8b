import ReplayRenderer.Frames.Rfp

/-!
What a frame pack is, byte by byte. The three pad bytes of the header and of
every record are read by nobody, so the encodings here take them as an
argument: the writer's are zero, the reader's are whatever stands there.

The record loop is described by two facts about the bytes: the records it
returns stand one after the other from the header on, and at the offset
where it stops something is wrong, or the zone has ended.
-/

namespace ReplayRenderer

open Lib Lib.Outcome

@[simp] theorem length_rfpMagic : rfpMagic.length = 8 := rfl

@[simp] theorem length_rfpEndMagic : rfpEndMagic.length = 8 := rfl

theorem pixFmtFromU8_eq_ok {v : UInt8} {f : PixelFormat} :
    pixFmtFromU8 v = .ok f ↔ pixFmtToU8 f = .ok v := by
  unfold pixFmtFromU8 pixFmtToU8
  cases f <;> split_ifs <;> simp_all [eq_comm]

theorem Comp.fromU8_eq_some {v : UInt8} {c : Comp} : Comp.fromU8 v = some c ↔ c.toU8 = v := by
  unfold Comp.fromU8 Comp.toU8
  cases c <;> split_ifs <;> simp_all [eq_comm]

/-! ### The header -/

def RfpHeader.encode (h : RfpHeader) (pixFmt : UInt8) (pad : Bytes) : Bytes :=
  rfpMagic ++ (le32 2 ++ (le32 h.flags ++ (le64 h.desc.gpaBase ++ (le16 h.desc.width ++
    (le16 h.desc.height ++ (le32 h.desc.strideBytes ++ ([pixFmt] ++ (pad ++
    (le32 h.clockNum ++ (le32 h.clockDen ++ h.jobId.bytes))))))))))

theorem RfpHeader.length_encode {h : RfpHeader} {pixFmt : UInt8} {pad : Bytes}
    (hpad : pad.length = 3) : (h.encode pixFmt pad).length = rfpHeaderLen := by
  simp [RfpHeader.encode, hpad, rfpHeaderLen]

theorem bytes16At_eq_ok {ε : Type} {b : Bytes} {off : Nat} {v : Bytes16} :
    (bytes16At b off : Outcome ε Bytes16) = .ok v ↔ SitsAt b off v.bytes := by
  simp only [bytes16At, bind_eq_ok, slice_eq_ok]
  constructor
  · rintro ⟨s, ⟨hs, -⟩, hv⟩
    split at hv
    · obtain rfl := Outcome.ok.inj hv
      exact hs
    · cases hv
  · intro h
    exact ⟨v.bytes, ⟨h, by simp⟩, by simp⟩

theorem sitsAt_rfpHeader {b : Bytes} {h : RfpHeader} {pixFmt : UInt8} {pad : Bytes}
    (hpad : pad.length = 3) :
    SitsAt b 0 (h.encode pixFmt pad) ↔
      SitsAt b 0 rfpMagic ∧ SitsAt b 8 (le32 2) ∧ SitsAt b 12 (le32 h.flags) ∧
        SitsAt b 16 (le64 h.desc.gpaBase) ∧ SitsAt b 24 (le16 h.desc.width) ∧
        SitsAt b 26 (le16 h.desc.height) ∧ SitsAt b 28 (le32 h.desc.strideBytes) ∧
        SitsAt b 32 [pixFmt] ∧ SitsAt b 33 pad ∧ SitsAt b 36 (le32 h.clockNum) ∧
        SitsAt b 40 (le32 h.clockDen) ∧ SitsAt b 44 h.jobId.bytes := by
  simp only [RfpHeader.encode, sitsAt_append, length_rfpMagic, length_le16, length_le32,
    length_le64, List.length_singleton, hpad, Nat.zero_add, Nat.reduceAdd]

/-- A header is read exactly where its encoding stands, with some pad. -/
theorem readRfpHeader_eq_ok {b : Bytes} {h : RfpHeader} :
    readRfpHeader b = .ok h ↔ ∃ pixFmt pad, pixFmtToU8 h.desc.pixelFormat = .ok pixFmt ∧
      pad.length = 3 ∧ SitsAt b 0 (h.encode pixFmt pad) := by
  simp only [readRfpHeader, bind_eq_ok, rejectIf_eq_ok, slice_eq_ok, u16At_eq_ok, u32At_eq_ok,
    u64At_eq_ok, bytes16At_eq_ok, expect_eq_ok, getElem?_eq_some_iff_sitsAt,
    pixFmtFromU8_eq_ok, pure_eq, exists_and_left, exists_const, not_not, ne_eq, not_lt]
  constructor
  · rintro ⟨hlen, _, ⟨hmagic, -⟩, rfl, _, hversion, rfl, flags, hflags, gpa, hgpa, width, hwidth,
      height, hheight, stride, hstride, pixFmt, hpixFmt, format, hformat, num, hnum, den, hden,
      job, hjob, hh⟩
    obtain rfl := Outcome.ok.inj hh
    obtain ⟨pad, hpadLen, hpad⟩ := exists_sitsAt b 33 3 (by unfold rfpHeaderLen at hlen; omega)
    exact ⟨pixFmt, hformat, pad, hpadLen, (sitsAt_rfpHeader hpadLen).mpr ⟨hmagic, hversion,
      hflags, hgpa, hwidth, hheight, hstride, hpixFmt, hpad, hnum, hden, hjob⟩⟩
  · rintro ⟨pixFmt, hformat, pad, hpadLen, hsits⟩
    have hlen := hsits.le_length
    rw [RfpHeader.length_encode hpadLen, Nat.zero_add] at hlen
    obtain ⟨hmagic, hversion, hflags, hgpa, hwidth, hheight, hstride, hpixFmt, hpad, hnum, hden,
      hjob⟩ := (sitsAt_rfpHeader hpadLen).mp hsits
    exact ⟨hlen, _, ⟨hmagic, rfl⟩, rfl, _, hversion, rfl, _, hflags, _, hgpa, _, hwidth, _,
      hheight, _, hstride, _, hpixFmt, _, hformat, _, hnum, _, hden, _, hjob, rfl⟩

/-! ### Records -/

def RfpRecord.encode (r : RfpRecord) (pad : Bytes) : Bytes :=
  le64 r.frameIndex ++ (le32 r.segmentIndex ++ ([r.comp.toU8] ++ (pad ++ (le64 r.icount ++
    (le32 (UInt32.ofNat r.bytes.length) ++ r.bytes)))))

def RfpRecord.encodedLen (r : RfpRecord) : Nat := rfpRecordHeaderLen + r.bytes.length

theorem RfpRecord.length_encode {r : RfpRecord} {pad : Bytes} (hpad : pad.length = 3) :
    (r.encode pad).length = r.encodedLen := by
  simp [RfpRecord.encode, RfpRecord.encodedLen, hpad, rfpRecordHeaderLen]
  omega

theorem sitsAt_rfpRecord {b pad : Bytes} {off : Nat} {r : RfpRecord} (hpad : pad.length = 3) :
    SitsAt b off (r.encode pad) ↔
      SitsAt b off (le64 r.frameIndex) ∧ SitsAt b (off + 8) (le32 r.segmentIndex) ∧
        SitsAt b (off + 12) [r.comp.toU8] ∧ SitsAt b (off + 13) pad ∧
        SitsAt b (off + 16) (le64 r.icount) ∧
        SitsAt b (off + 24) (le32 (UInt32.ofNat r.bytes.length)) ∧
        SitsAt b (off + 28) r.bytes := by
  simp only [RfpRecord.encode, sitsAt_append, length_le32, length_le64, List.length_singleton,
    hpad, Nat.add_assoc, Nat.reduceAdd]

structure RecordAt (b : Bytes) (zoneEnd off : Nat) (r : RfpRecord) : Prop where
  len_lt : r.bytes.length < 2 ^ 32
  fits : off + r.encodedLen ≤ zoneEnd
  sits : ∃ pad, pad.length = 3 ∧ SitsAt b off (r.encode pad)

/-- The record loop stops at `off`: the zone ends there, or a header does not
fit, or a payload does not, or the comp byte is unknown. -/
inductive StopsAt (b : Bytes) (zoneEnd off : Nat) : Bool → Prop
  | zone (h : zoneEnd ≤ off) : StopsAt b zoneEnd off true
  | short (h : off < zoneEnd) (hshort : zoneEnd < off + rfpRecordHeaderLen) :
      StopsAt b zoneEnd off false
  | overrun {len : UInt32} (hlen : SitsAt b (off + 24) (le32 len))
      (hfits : off + rfpRecordHeaderLen ≤ zoneEnd)
      (hover : zoneEnd < off + (rfpRecordHeaderLen + len.toNat)) : StopsAt b zoneEnd off false
  | comp {len : UInt32} {v : UInt8} (hlen : SitsAt b (off + 24) (le32 len))
      (hfits : off + (rfpRecordHeaderLen + len.toNat) ≤ zoneEnd)
      (hcomp : SitsAt b (off + 12) [v]) (hbad : Comp.fromU8 v = none) :
      StopsAt b zoneEnd off false

section Loop

variable {b : Bytes} {zoneEnd off : Nat}

/-- In every position the loop reads a record or stops. -/
theorem recordAt_or_stopsAt (hzone : zoneEnd ≤ b.length) (off : Nat) :
    (∃ r, RecordAt b zoneEnd off r) ∨ ∃ ok, StopsAt b zoneEnd off ok := by
  have h28 : rfpRecordHeaderLen = 28 := rfl
  by_cases hdone : zoneEnd ≤ off
  · exact .inr ⟨true, .zone hdone⟩
  by_cases hshort : zoneEnd < off + rfpRecordHeaderLen
  · exact .inr ⟨false, .short (not_le.mp hdone) hshort⟩
  obtain ⟨len, hlen⟩ := exists_sitsAt_le32 b (off + 24) (by omega)
  by_cases hover : zoneEnd < off + (rfpRecordHeaderLen + len.toNat)
  · exact .inr ⟨false, .overrun hlen (not_lt.mp hshort) hover⟩
  obtain ⟨v, hv⟩ := exists_sitsAt_byte b (off + 12) (by omega)
  cases hcomp : Comp.fromU8 v with
  | none => exact .inr ⟨false, .comp hlen (not_lt.mp hover) hv hcomp⟩
  | some comp =>
      obtain ⟨frameIndex, hframe⟩ := exists_sitsAt_le64 b off (by omega)
      obtain ⟨segmentIndex, hsegment⟩ := exists_sitsAt_le32 b (off + 8) (by omega)
      obtain ⟨pad, hpadLen, hpad⟩ := exists_sitsAt b (off + 13) 3 (by omega)
      obtain ⟨icount, hicount⟩ := exists_sitsAt_le64 b (off + 16) (by omega)
      obtain ⟨payload, hpayloadLen, hpayload⟩ := exists_sitsAt b (off + 28) len.toNat (by omega)
      rw [← Comp.fromU8_eq_some.mp hcomp] at hv
      refine .inl ⟨⟨frameIndex, segmentIndex, comp, icount, payload⟩, ?_, ?_, pad, hpadLen, ?_⟩
      · rw [hpayloadLen]
        exact len.toNat_lt
      · rw [RfpRecord.encodedLen, hpayloadLen]
        exact not_lt.mp hover
      · rw [sitsAt_rfpRecord hpadLen, hpayloadLen, UInt32.ofNat_toNat]
        exact ⟨hframe, hsegment, hv, hpad, hicount, hlen, hpayload⟩

theorem readRecords_of_recordAt {ε : Type} {fuel : Nat} {r : RfpRecord}
    (h : RecordAt b zoneEnd off r) :
    (readRecords b zoneEnd (fuel + 1) off : Outcome ε _) =
      (readRecords b zoneEnd fuel (off + r.encodedLen) >>= fun read =>
        .ok (r :: read.1, read.2)) := by
  obtain ⟨pad, hpadLen, hsits⟩ := h.sits
  have hle := hsits.le_length
  rw [RfpRecord.length_encode hpadLen] at hle
  have hfits := h.fits
  have h28 : rfpRecordHeaderLen = 28 := rfl
  unfold RfpRecord.encodedLen at hfits hle
  have hoff : off ≤ b.length := by omega
  have hrem : SitsAt (b.drop off) 0 (r.encode pad) := (sitsAt_drop hoff).mpr hsits
  have hslice : (slice b off b.length : Outcome ε Bytes) = .ok (b.drop off) := slice_to_end hoff
  obtain ⟨hframe, hsegment, hcomp, -, hicount, hlen, hpayload⟩ := (sitsAt_rfpRecord hpadLen).mp hrem
  simp only [Nat.zero_add] at hframe hsegment hcomp hicount hlen hpayload
  have hlenNat : (UInt32.ofNat r.bytes.length).toNat = r.bytes.length :=
    UInt32.toNat_ofNat_of_lt' h.len_lt
  have hleft : (u64Sub zoneEnd off : Outcome ε Nat) = .ok (zoneEnd - off) :=
    u64Sub_of_le (by omega)
  have hroom : (u64Sub (zoneEnd - off) rfpRecordHeaderLen : Outcome ε Nat) =
      .ok (zoneEnd - off - rfpRecordHeaderLen) := u64Sub_of_le (by omega)
  have hcompByte : (b.drop off)[12]? = some r.comp.toU8 := getElem?_eq_some_iff_sitsAt.mpr hcomp
  have hframeAt : (u64At (b.drop off) 0 : Outcome ε UInt64) = .ok r.frameIndex :=
    u64At_eq_ok.mpr hframe
  have hsegmentAt : (u32At (b.drop off) 8 : Outcome ε UInt32) = .ok r.segmentIndex :=
    u32At_eq_ok.mpr hsegment
  have hicountAt : (u64At (b.drop off) 16 : Outcome ε UInt64) = .ok r.icount :=
    u64At_eq_ok.mpr hicount
  have hlenAt : (u32At (b.drop off) 24 : Outcome ε UInt32) =
      .ok (UInt32.ofNat r.bytes.length) := u32At_eq_ok.mpr hlen
  have hpayloadAt : (slice (b.drop off) rfpRecordHeaderLen
      (rfpRecordHeaderLen + r.bytes.length) : Outcome ε Bytes) = .ok r.bytes :=
    slice_of_sitsAt hpayload rfl
  -- the guards in the order the loop makes them, then the fields
  rw [readRecords, if_pos (by omega), hleft, ok_bind, if_neg (by omega), hslice, ok_bind,
    hlenAt, ok_bind, hlenNat, hroom, ok_bind, if_neg (by omega), hcompByte, expect_some, ok_bind,
    Comp.fromU8_eq_some.mpr rfl]
  simp only [hframeAt, hsegmentAt, hicountAt, hpayloadAt, ok_bind]
  rfl

theorem readRecords_of_stopsAt {ε : Type} {fuel : Nat} {ok : Bool} (hzone : zoneEnd ≤ b.length)
    (hfuel : zoneEnd ≤ off + fuel) (h : StopsAt b zoneEnd off ok) :
    (readRecords b zoneEnd fuel off : Outcome ε _) = .ok ([], ok) := by
  have h28 : rfpRecordHeaderLen = 28 := rfl
  cases fuel with
  | zero =>
      -- without fuel the loop stands at the end of the zone
      cases h with
      | zone h => rfl
      | short h hshort => omega
      | overrun hlen hfits hover => omega
      | comp hlen hfits hcomp hbad => omega
  | succ fuel =>
      have hleft : off ≤ zoneEnd → (u64Sub zoneEnd off : Outcome ε Nat) = .ok (zoneEnd - off) :=
        fun hle => u64Sub_of_le hle
      have hroom : off + 28 ≤ zoneEnd → (u64Sub (zoneEnd - off) rfpRecordHeaderLen :
          Outcome ε Nat) = .ok (zoneEnd - off - rfpRecordHeaderLen) := fun hle =>
        u64Sub_of_le (by omega)
      have hslice : off ≤ b.length → (slice b off b.length : Outcome ε Bytes) =
          .ok (b.drop off) := fun hoff => slice_to_end hoff
      have hlenAt : ∀ {len : UInt32}, SitsAt b (off + 24) (le32 len) →
          (u32At (b.drop off) 24 : Outcome ε UInt32) = .ok len := by
        intro len hlen
        have hle := hlen.le_length
        rw [u32At_eq_ok, sitsAt_drop (by omega)]
        exact hlen
      cases h with
      | zone h => rw [readRecords, if_neg (by omega), pure_eq]
      | short h hshort =>
          rw [readRecords, if_pos h, hleft h.le, ok_bind, if_pos (by omega), pure_eq]
      | overrun hlen hfits hover =>
          rw [readRecords, if_pos (by omega), hleft (by omega), ok_bind, if_neg (by omega),
            hslice (by omega), ok_bind, hlenAt hlen, ok_bind, hroom hfits, ok_bind,
            if_pos (by omega), pure_eq]
      | @comp _ v hlen hfits hcomp hbad =>
          have hbyte : (b.drop off)[12]? = some v := by
            rw [getElem?_eq_some_iff_sitsAt, sitsAt_drop (by omega)]
            exact hcomp
          rw [readRecords, if_pos (by omega), hleft (by omega), ok_bind, if_neg (by omega),
            hslice (by omega), ok_bind, hlenAt hlen, ok_bind, hroom (by omega), ok_bind,
            if_neg (by omega), hbyte, expect_some, ok_bind, hbad]
          rfl

/-- Records one after the other from `off` on, the last of them ending at
`stop`. -/
def RecordsAt (b : Bytes) (zoneEnd : Nat) : Nat → List RfpRecord → Nat → Prop
  | off, [], stop => stop = off
  | off, r :: rs, stop =>
    RecordAt b zoneEnd off r ∧ RecordsAt b zoneEnd (off + r.encodedLen) rs stop

theorem readRecords_spec (hzone : zoneEnd ≤ b.length) {fuel : Nat} :
    ∀ {off : Nat}, zoneEnd ≤ off + fuel →
      ∃ rs stop ok, (∀ {ε : Type}, (readRecords b zoneEnd fuel off : Outcome ε _) = .ok (rs, ok)) ∧
        RecordsAt b zoneEnd off rs stop ∧ StopsAt b zoneEnd stop ok := by
  induction fuel with
  | zero =>
      intro off hfuel
      exact ⟨[], off, true, rfl, rfl, .zone hfuel⟩
  | succ fuel ih =>
      intro off hfuel
      rcases recordAt_or_stopsAt hzone off with ⟨r, hr⟩ | ⟨ok, hstop⟩
      · have h28 : rfpRecordHeaderLen = 28 := rfl
        obtain ⟨rs, stop, ok, hread, hrs, hstop⟩ := @ih (off + r.encodedLen) (by
          unfold RfpRecord.encodedLen
          omega)
        refine ⟨r :: rs, stop, ok, fun {ε} => ?_, ⟨hr, hrs⟩, hstop⟩
        rw [readRecords_of_recordAt hr, hread, ok_bind]
      · exact ⟨[], off, ok, readRecords_of_stopsAt hzone hfuel hstop, rfl, hstop⟩

/-- The loop returns exactly the records that stand there. -/
theorem readRecords_of_recordsAt {ε : Type} (hzone : zoneEnd ≤ b.length) {rs : List RfpRecord}
    {stop : Nat} {ok : Bool} (hstop : StopsAt b zoneEnd stop ok) :
    ∀ {fuel off : Nat}, zoneEnd ≤ off + fuel → RecordsAt b zoneEnd off rs stop →
      (readRecords b zoneEnd fuel off : Outcome ε _) = .ok (rs, ok) := by
  induction rs with
  | nil =>
      rintro fuel off hfuel rfl
      exact readRecords_of_stopsAt hzone hfuel hstop
  | cons r rs ih =>
      rintro fuel off hfuel ⟨hr, hrs⟩
      have h28 : rfpRecordHeaderLen = 28 := rfl
      have hfits := hr.fits
      cases fuel with
      | zero =>
          unfold RfpRecord.encodedLen at hfits
          omega
      | succ fuel =>
          have hfuel' : zoneEnd ≤ off + r.encodedLen + fuel := by
            unfold RfpRecord.encodedLen
            omega
          rw [readRecords_of_recordAt hr, ih hfuel' hrs, ok_bind]

theorem RecordsAt.bounds {rs : List RfpRecord} :
    ∀ {off stop : Nat}, RecordsAt b zoneEnd off rs stop →
      off ≤ stop ∧ (rs ≠ [] → stop ≤ zoneEnd) := by
  induction rs with
  | nil =>
      rintro off stop rfl
      exact ⟨le_refl _, fun h => absurd rfl h⟩
  | cons r rs ih =>
      rintro off stop ⟨hr, hrs⟩
      obtain ⟨hle, hstop⟩ := ih hrs
      refine ⟨(Nat.le_add_right _ _).trans hle, fun _ => ?_⟩
      cases rs with
      | nil =>
          obtain rfl : stop = off + r.encodedLen := hrs
          exact hr.fits
      | cons r' rs => exact hstop (List.cons_ne_nil _ _)

/-- Encodings in a row are read as the records they encode. -/
theorem recordsAt_of_flatMap {rs : List RfpRecord} :
    ∀ {off : Nat}, (∀ r ∈ rs, r.bytes.length < 2 ^ 32) →
      SitsAt b off (rs.flatMap fun r => r.encode (zeros 3)) →
      off + (rs.flatMap fun r => r.encode (zeros 3)).length ≤ zoneEnd →
      RecordsAt b zoneEnd off rs (off + (rs.flatMap fun r => r.encode (zeros 3)).length) := by
  induction rs with
  | nil =>
      intro off _ _ _
      rfl
  | cons r rs ih =>
      intro off hlen hsits hend
      have hrLen : (r.encode (zeros 3)).length = r.encodedLen := RfpRecord.length_encode (by simp)
      rw [List.flatMap_cons, sitsAt_append, hrLen] at hsits
      rw [List.flatMap_cons, List.length_append, hrLen, ← Nat.add_assoc] at hend ⊢
      refine ⟨⟨hlen r (List.mem_cons_self ..), (Nat.le_add_right _ _).trans hend, zeros 3, by simp,
        hsits.1⟩, ?_⟩
      exact ih (fun q hq => hlen q (List.mem_cons_of_mem r hq)) hsits.2 hend

end Loop

/-! ### The footer -/

def rfpFooter (count : UInt64) (flag : UInt8) (hash : Bytes32) : Bytes :=
  rfpEndMagic ++ (le64 count ++ ([flag] ++ hash.bytes))

@[simp] theorem length_rfpFooter (count : UInt64) (flag : UInt8) (hash : Bytes32) :
    (rfpFooter count flag hash).length = rfpFooterLen := by
  simp [rfpFooter, rfpFooterLen]

theorem sitsAt_rfpFooter {b : Bytes} {off : Nat} {count : UInt64} {flag : UInt8} {hash : Bytes32} :
    SitsAt b off (rfpFooter count flag hash) ↔
      SitsAt b off rfpEndMagic ∧ SitsAt b (off + 8) (le64 count) ∧ SitsAt b (off + 16) [flag] ∧
        SitsAt b (off + 17) hash.bytes := by
  simp only [rfpFooter, sitsAt_append, length_rfpEndMagic, length_le64, List.length_singleton,
    Nat.add_assoc, Nat.reduceAdd]

section Pack

variable {blake3 : Bytes → Bytes32} {b : Bytes}

structure FooterAt (blake3 : Bytes → Bytes32) (b : Bytes) (fs : Nat) : Prop where
  length_eq : b.length = fs + rfpFooterLen
  magic : SitsAt b fs rfpEndMagic
  hash : SitsAt b (fs + 17) (blake3 (b.take fs)).bytes

theorem footerOk_spec (blake3 : Bytes → Bytes32) (b : Bytes) :
    ∃ footer, (∀ {ε : Type}, (footerOk blake3 b : Outcome ε _) = .ok footer) ∧
      ∀ fs, footer = some fs ↔ FooterAt blake3 b fs := by
  have h49 : rfpFooterLen = 49 := rfl
  by_cases hlen : b.length < rfpFooterLen
  · refine ⟨none, fun {ε} => if_pos hlen, fun fs => ?_⟩
    simp only [reduceCtorEq, false_iff]
    intro h
    have hlength := h.length_eq
    omega
  -- only one place can hold the footer, so the bytes there decide
  generalize hfs : b.length - rfpFooterLen = fs
  obtain ⟨magic, hmagicLen, hmagic⟩ := exists_sitsAt b fs 8 (by omega)
  obtain ⟨hash, hhashLen, hhash⟩ := exists_sitsAt b (fs + 17) 32 (by omega)
  have hbody : SitsAt b 0 (b.take fs) := ⟨[], b.drop fs, by simp, rfl⟩
  have hbodyLen : fs = 0 + (b.take fs).length := by
    rw [List.length_take]
    omega
  have hread : ∀ {ε : Type}, (footerOk blake3 b : Outcome ε _) =
      .ok (if magic ≠ rfpEndMagic then none
        else if (blake3 (b.take fs)).bytes = hash then some fs else none) := by
    intro ε
    rw [footerOk, if_neg hlen]
    simp only [hfs]
    rw [slice_of_sitsAt hmagic (by omega), ok_bind]
    split
    · rfl
    · rw [slice_of_sitsAt hbody hbodyLen, ok_bind, slice_of_sitsAt hhash (by omega), ok_bind]
      split <;> rfl
  refine ⟨_, hread, fun fs' => ⟨fun h => ?_, fun h => ?_⟩⟩
  · split_ifs at h with hne heq
    obtain rfl := Option.some.inj h
    exact ⟨by omega, not_not.mp hne ▸ hmagic, heq ▸ hhash⟩
  · obtain rfl : fs' = fs := by
      have hlength := h.length_eq
      omega
    rw [hmagic.unique h.magic (by rw [hmagicLen, length_rfpEndMagic]), if_neg (not_not.mpr rfl),
      if_pos (h.hash.unique hhash (by rw [hhashLen, Bytes32.length_bytes]))]

/-! ### A pack as it is read -/

def RfpReadOutcome.resumable : RfpReadOutcome → Bool
  | .complete .. => true
  | .torn .. => false

theorem RfpReadOutcome.eq_complete {out : RfpReadOutcome} (h : out.resumable = true) :
    out = .complete out.header out.records := by
  cases out with
  | complete header records => rfl
  | torn header records => cases h

theorem RfpReadOutcome.eq_torn {out : RfpReadOutcome} (h : out.resumable = false) :
    out = .torn out.header out.records := by
  cases out with
  | complete header records => cases h
  | torn header records => rfl

def ZoneEnd (blake3 : Bytes → Bytes32) (b : Bytes) (zoneEnd : Nat) : Prop :=
  FooterAt blake3 b zoneEnd ∨ ((∀ fs, ¬FooterAt blake3 b fs) ∧ zoneEnd = b.length)

theorem ZoneEnd.le_length {zoneEnd : Nat} (h : ZoneEnd blake3 b zoneEnd) :
    zoneEnd ≤ b.length := by
  rcases h with h | ⟨-, rfl⟩
  · rw [h.length_eq]
    exact Nat.le_add_right _ _
  · exact le_refl _

/-- What is known of a pack behind its header: the records that were read
stand in the zone, one after the other, the loop stopped behind the last of
them, and the verdict is the footer's if the framing held. -/
structure PackRead (blake3 : Bytes → Bytes32) (b : Bytes) (out : RfpReadOutcome)
    (zoneEnd stop : Nat) (framingOk : Bool) : Prop where
  zone : ZoneEnd blake3 b zoneEnd
  records : RecordsAt b zoneEnd rfpHeaderLen out.records stop
  stops : StopsAt b zoneEnd stop framingOk
  resumable_iff : out.resumable = true ↔ FooterAt blake3 b zoneEnd ∧ framingOk = true ∧
    SitsAt b (zoneEnd + 8) (le64 (UInt64.ofNat out.records.length)) ∧ SitsAt b (zoneEnd + 16) [1]

theorem readRfp_spec (blake3 : Bytes → Bytes32) {h : RfpHeader} (hh : readRfpHeader b = .ok h) :
    ∃ out zoneEnd stop framingOk, readRfp blake3 b = .ok out ∧ out.header = h ∧
      PackRead blake3 b out zoneEnd stop framingOk := by
  obtain ⟨footer, hfooter, hiff⟩ := footerOk_spec blake3 b
  have hzone : ZoneEnd blake3 b (footer.getD b.length) := by
    cases footer with
    | none => exact .inr ⟨fun fs hfs => (by cases (hiff fs).mpr hfs), rfl⟩
    | some fs => exact .inl ((hiff fs).mp rfl)
  obtain ⟨rs, stop, ok, hread, hrs, hstop⟩ :=
    readRecords_spec hzone.le_length (hzone.le_length.trans (Nat.le_add_left _ rfpHeaderLen))
  cases hf : footer with
  | none =>
      -- no footer: the zone is the whole file, and the pack is torn
      rw [hf] at hfooter hread hrs hstop hzone
      refine ⟨.torn h rs, _, stop, ok, ?_, rfl, hzone, hrs, hstop, ?_⟩
      · rw [readRfp, hh, ok_bind, hfooter, ok_bind]
        simp only [hread, ok_bind]
        rfl
      · simp only [RfpReadOutcome.resumable, Bool.false_eq_true, false_iff]
        rintro ⟨hat, -⟩
        rw [hf] at hiff
        cases (hiff _).mpr hat
  | some fs =>
      have hat : FooterAt blake3 b fs := (hiff fs).mp hf
      rw [hf] at hfooter hread hrs hstop hzone
      have hlength := hat.length_eq
      have h49 : rfpFooterLen = 49 := rfl
      -- the verdict needs the framing, the flag and the count
      obtain ⟨count, hcount⟩ := exists_sitsAt_le64 b (fs + 8) (by omega)
      obtain ⟨flag, hflag⟩ := exists_sitsAt_byte b (fs + 16) (by omega)
      have hcountAt : (u64At b (fs + 8) : Outcome RfpError UInt64) = .ok count :=
        u64At_eq_ok.mpr hcount
      have hflagAt : b[fs + 16]? = some flag := getElem?_eq_some_iff_sitsAt.mpr hflag
      have hout : readRfp blake3 b = .ok (if ok = true ∧ flag = 1 ∧
          count = UInt64.ofNat rs.length then .complete h rs else .torn h rs) := by
        rw [readRfp, hh, ok_bind, hfooter, ok_bind]
        simp only [hread, ok_bind]
        cases ok with
        | true =>
            simp only [if_true, hcountAt, ok_bind, hflagAt, expect_some, true_and]
            split <;> rfl
        | false => rfl
      have hflagIff : SitsAt b (fs + 16) [1] ↔ flag = 1 :=
        ⟨fun hone => hflag.byte_inj hone, fun heq => heq ▸ hflag⟩
      have hcountIff : SitsAt b (fs + 8) (le64 (UInt64.ofNat rs.length)) ↔
          count = UInt64.ofNat rs.length :=
        ⟨fun hlen => hcount.le64_inj hlen, fun heq => heq ▸ hcount⟩
      by_cases hcomplete : ok = true ∧ flag = 1 ∧ count = UInt64.ofNat rs.length
      · rw [if_pos hcomplete] at hout
        refine ⟨_, fs, stop, ok, hout, rfl, hzone, hrs, hstop, ?_⟩
        simp only [RfpReadOutcome.resumable, true_iff]
        exact ⟨hat, hcomplete.1, hcountIff.mpr hcomplete.2.2, hflagIff.mpr hcomplete.2.1⟩
      · rw [if_neg hcomplete] at hout
        refine ⟨_, fs, stop, ok, hout, rfl, hzone, hrs, hstop, ?_⟩
        simp only [RfpReadOutcome.resumable, Bool.false_eq_true, false_iff]
        rintro ⟨-, hok, hlen, hone⟩
        exact hcomplete ⟨hok, hflagIff.mp hone, hcountIff.mp hlen⟩

/-! ### A pack as it is written -/

def packBytes (blake3 : Bytes → Bytes32) (header : RfpHeader) (pixFmt : UInt8)
    (records : List RfpRecord) (complete : Bool) : Bytes :=
  let body := header.encode pixFmt (zeros 3) ++ records.flatMap fun r => r.encode (zeros 3)
  body ++ rfpFooter (UInt64.ofNat records.length) (if complete then 1 else 0) (blake3 body)

theorem foldl_push (w : RfpWriter) (records : List RfpRecord) :
    records.foldl RfpWriter.push w =
      ⟨w.buf ++ records.flatMap fun r => r.encode (zeros 3),
        w.count + UInt64.ofNat records.length⟩ := by
  induction records generalizing w with
  | nil => simp
  | cons r rs ih =>
      rw [List.foldl_cons, ih, RfpWriter.push, List.flatMap_cons, List.length_cons,
        UInt64.ofNat_add, RfpWriter.mk.injEq]
      refine ⟨?_, ?_⟩
      · simp [RfpRecord.encode]
      · rw [UInt64.add_assoc, UInt64.add_comm 1]
        rfl

theorem writeRfp_eq_ok {header : RfpHeader} {records : List RfpRecord} {complete : Bool} :
    writeRfp blake3 header records complete = .ok b ↔
      ∃ pixFmt, pixFmtToU8 header.desc.pixelFormat = .ok pixFmt ∧
        b = packBytes blake3 header pixFmt records complete := by
  have hpack : ∀ pixFmt : UInt8, (records.foldl RfpWriter.push
      ⟨header.encode pixFmt (zeros 3), 0⟩).finish blake3 complete =
        packBytes blake3 header pixFmt records complete := by
    intro pixFmt
    rw [foldl_push, RfpWriter.finish, packBytes]
    simp [rfpFooter]
  have hnew : RfpWriter.new header = (pixFmtToU8 header.desc.pixelFormat >>= fun pixFmt =>
      .ok ⟨header.encode pixFmt (zeros 3), 0⟩) := rfl
  rw [writeRfp, hnew]
  simp only [bind_eq_ok, Outcome.ok.injEq, pure_eq]
  constructor
  · rintro ⟨w, ⟨pixFmt, hpixFmt, rfl⟩, rfl⟩
    exact ⟨pixFmt, hpixFmt, hpack pixFmt⟩
  · rintro ⟨pixFmt, hpixFmt, rfl⟩
    exact ⟨_, ⟨pixFmt, hpixFmt, rfl⟩, hpack pixFmt⟩

end Pack

end ReplayRenderer
