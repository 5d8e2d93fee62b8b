import ReplayRenderer.Frames.Resume

/-!
How much of a pack its reader forces. Nobody reads the pad bytes, and on a
short input the footer may begin inside the header; up to that an accepted
pack is the writer's own. The hash covers everything before the footer, and
the footer's magic, count and hash are checked against it; the complete flag
is checked against nothing.
-/

namespace ReplayRenderer

open Lib Lib.Outcome

/-! ### Pad bytes -/

/-- The offsets that the length fields lead to from `off` on. -/
inductive FrameFrom (b : Bytes) : Nat → Nat → Prop
  | refl (off : Nat) : FrameFrom b off off
  | step {off off' : Nat} {len : UInt32} (hlen : SitsAt b (off + 24) (le32 len))
      (hrest : FrameFrom b (off + (rfpRecordHeaderLen + len.toNat)) off') : FrameFrom b off off'

theorem FrameFrom.le {b : Bytes} {off off' : Nat} (h : FrameFrom b off off') : off ≤ off' := by
  induction h with
  | refl off => exact le_refl off
  | step hlen hrest ih => exact (Nat.le_add_right _ _).trans ih

section Pads

variable {b : Bytes} {zoneEnd : Nat}

theorem RecordAt.frameFrom_iff {off off' : Nat} {r : RfpRecord} (h : RecordAt b zoneEnd off r) :
    FrameFrom b off off' ↔ off' = off ∨ FrameFrom b (off + r.encodedLen) off' := by
  obtain ⟨pad, hpad, hsits⟩ := h.sits
  obtain ⟨-, -, -, -, -, hlen, -⟩ := (sitsAt_rfpRecord hpad).mp hsits
  have hlenNat : (UInt32.ofNat r.bytes.length).toNat = r.bytes.length :=
    UInt32.toNat_ofNat_of_lt' h.len_lt
  constructor
  · intro hframe
    cases hframe with
    | refl => exact .inl rfl
    | step hlen' hrest =>
        rw [hlen'.le32_inj hlen, hlenNat] at hrest
        exact .inr hrest
  · rintro (rfl | hrest)
    · exact .refl off'
    · refine .step hlen ?_
      rw [hlenNat]
      exact hrest

/-- A record is the writer's exactly when its pad is zero. -/
theorem RecordAt.sitsAt_encode_iff {off : Nat} {r : RfpRecord} (h : RecordAt b zoneEnd off r) :
    SitsAt b off (r.encode (zeros 3)) ↔ SitsAt b (off + 13) (zeros 3) := by
  obtain ⟨pad, hpad, hsits⟩ := h.sits
  constructor
  · intro hencode
    exact ((sitsAt_rfpRecord (length_zeros 3)).mp hencode).2.2.2.1
  · intro hzeros
    have hpadSits := ((sitsAt_rfpRecord hpad).mp hsits).2.2.2.1
    rwa [← hpadSits.unique hzeros (by rw [hpad, length_zeros])]

theorem RecordsAt.length_flatMap {rs : List RfpRecord} {stop : Nat} :
    ∀ {off : Nat}, RecordsAt b zoneEnd off rs stop →
      stop = off + (rs.flatMap fun r => r.encode (zeros 3)).length := by
  induction rs with
  | nil => exact fun h => h
  | cons r rs ih =>
      rintro off ⟨-, hrs⟩
      rw [ih hrs, List.flatMap_cons, List.length_append,
        RfpRecord.length_encode (length_zeros 3), Nat.add_assoc]

theorem RecordsAt.sitsAt_flatMap_iff (hzone : zoneEnd ≤ b.length) {rs : List RfpRecord}
    {stop : Nat} :
    ∀ {off : Nat}, off ≤ zoneEnd → RecordsAt b zoneEnd off rs stop →
      (SitsAt b off (rs.flatMap fun r => r.encode (zeros 3)) ↔
        ∀ off', FrameFrom b off off' → off' < stop → SitsAt b (off' + 13) (zeros 3)) := by
  induction rs with
  | nil =>
      rintro off hoff rfl
      simp only [List.flatMap_nil, sitsAt_nil]
      refine ⟨fun _ off' hframe hlt => ?_, fun _ => hoff.trans hzone⟩
      exact absurd hframe.le (not_le.mpr hlt)
  | cons r rs ih =>
      rintro off hoff ⟨hr, hrs⟩
      have hstop := hrs.bounds.1
      have h28 : r.encodedLen = 28 + r.bytes.length := rfl
      rw [List.flatMap_cons, sitsAt_append, RfpRecord.length_encode (length_zeros 3),
        hr.sitsAt_encode_iff, ih hr.fits hrs]
      constructor
      · rintro ⟨hpad, hrest⟩ off' hframe hlt
        rcases hr.frameFrom_iff.mp hframe with rfl | hframe
        · exact hpad
        · exact hrest off' hframe hlt
      · intro h
        refine ⟨h off (.refl off) (by omega), fun off' hframe hlt => ?_⟩
        exact h off' (hr.frameFrom_iff.mpr (.inr hframe)) hlt

theorem sitsAt_encode_header_iff {header : RfpHeader} {pixFmt : UInt8} {pad : Bytes}
    (hpad : pad.length = 3) (h : SitsAt b 0 (header.encode pixFmt pad)) :
    SitsAt b 0 (header.encode pixFmt (zeros 3)) ↔ SitsAt b 33 (zeros 3) := by
  have hpadSits : SitsAt b 33 pad := ((sitsAt_rfpHeader hpad).mp h).2.2.2.2.2.2.2.2.1
  constructor
  · intro hencode
    exact ((sitsAt_rfpHeader (length_zeros 3)).mp hencode).2.2.2.2.2.2.2.2.1
  · intro hzeros
    rwa [← hpadSits.unique hzeros (by rw [hpad, length_zeros])]

end Pads

/-! ### Accepted packs -/

section Complete

variable {blake3 : Bytes → Bytes32} {b : Bytes} {header : RfpHeader} {records : List RfpRecord}

theorem complete_cases (h : readRfp blake3 b = .ok (.complete header records)) :
    ∃ pixFmt pad fs stop, pixFmtToU8 header.desc.pixelFormat = .ok pixFmt ∧ pad.length = 3 ∧
      SitsAt b 0 (header.encode pixFmt pad) ∧ RecordsAt b fs rfpHeaderLen records stop ∧
      (rfpHeaderLen ≤ fs → stop = fs) ∧ b.length = fs + rfpFooterLen ∧
      SitsAt b fs (rfpFooter (UInt64.ofNat records.length) 1 (blake3 (b.take fs))) := by
  obtain ⟨hheader, fs, stop, ok, hpack⟩ := packRead_of_readRfp h
  obtain ⟨pixFmt, pad, hformat, hpad, hsits⟩ := readRfpHeader_eq_ok.mp hheader
  obtain ⟨hfooter, rfl, hcount, hflag⟩ := hpack.resumable_iff.mp rfl
  exact ⟨pixFmt, pad, fs, stop, hformat, hpad, hsits, hpack.records, hpack.stop_eq,
    hfooter.length_eq, sitsAt_rfpFooter.mpr ⟨hfooter.magic, hcount, hflag, hfooter.hash⟩⟩

/-- A pack with a good footer is the writer's where its parts are. -/
theorem packBytes_eq_iff {pixFmt : UInt8} {fs : Nat} (hlen : b.length = fs + rfpFooterLen)
    (hfooter : SitsAt b fs (rfpFooter (UInt64.ofNat records.length) 1 (blake3 (b.take fs)))) :
    packBytes blake3 header pixFmt records true = b ↔
      SitsAt b 0 (header.encode pixFmt (zeros 3) ++
        records.flatMap fun r => r.encode (zeros 3)) ∧
      fs = rfpHeaderLen + (records.flatMap fun r => r.encode (zeros 3)).length := by
  have hpack : packBytes blake3 header pixFmt records true =
      (header.encode pixFmt (zeros 3) ++ records.flatMap fun r => r.encode (zeros 3)) ++
        rfpFooter (UInt64.ofNat records.length) 1 (blake3 (header.encode pixFmt (zeros 3) ++
          records.flatMap fun r => r.encode (zeros 3))) := rfl
  have hheaderLen : (header.encode pixFmt (zeros 3)).length = rfpHeaderLen :=
    RfpHeader.length_encode (length_zeros 3)
  rw [← hheaderLen, ← List.length_append, hpack]
  generalize header.encode pixFmt (zeros 3) ++
    (records.flatMap fun r => r.encode (zeros 3)) = body
  constructor
  · rintro rfl
    refine ⟨⟨[], _, rfl, rfl⟩, ?_⟩
    rw [List.length_append, length_rfpFooter] at hlen
    exact (Nat.add_right_cancel hlen).symm
  · rintro ⟨hsits, rfl⟩
    have htake : b.take body.length = body := by
      have hdrop := (sitsAt_iff.mp hsits).2
      rwa [List.drop_zero] at hdrop
    rw [htake] at hfooter
    have hwhole : SitsAt b 0 (body ++ rfpFooter (UInt64.ofNat records.length) 1 (blake3 body)) := by
      rw [sitsAt_append, Nat.zero_add]
      exact ⟨hsits, hfooter⟩
    exact (hwhole.eq_of_length (by rw [List.length_append, length_rfpFooter, hlen])).symm

end Complete

/-- A pack that may be resumed from is written again as it was exactly when
its pad bytes are zero and its footer does not begin inside the header. -/
theorem rewrite_eq_iff (blake3 : Bytes → Bytes32) {b : Bytes} {header : RfpHeader}
    {records : List RfpRecord} (h : readRfp blake3 b = .ok (.complete header records)) :
    ∃ again, writeRfp blake3 header records true = .ok again ∧
      (again = b ↔ rfpHeaderLen + rfpFooterLen ≤ b.length ∧ SitsAt b 33 (zeros 3) ∧
        ∀ off, FrameFrom b rfpHeaderLen off → off < b.length - rfpFooterLen →
          SitsAt b (off + 13) (zeros 3)) := by
  obtain ⟨pixFmt, pad, fs, stop, hformat, hpad, hheader, hrecords, hstop, hlen, hfooter⟩ :=
    complete_cases h
  refine ⟨_, writeRfp_eq_ok.mpr ⟨pixFmt, hformat, rfl⟩, ?_⟩
  have hfs : b.length - rfpFooterLen = fs := by omega
  rw [packBytes_eq_iff hlen hfooter, sitsAt_append, RfpHeader.length_encode (length_zeros 3),
    Nat.zero_add, sitsAt_encode_header_iff hpad hheader, hfs]
  by_cases hstart : rfpHeaderLen ≤ fs
  · obtain rfl := hstop hstart
    have hend := hrecords.length_flatMap
    rw [hrecords.sitsAt_flatMap_iff (by omega) hstart]
    constructor
    · rintro ⟨⟨hpadSits, hpads⟩, -⟩
      exact ⟨by omega, hpadSits, hpads⟩
    · rintro ⟨-, hpadSits, hpads⟩
      exact ⟨⟨hpadSits, hpads⟩, hend⟩
  · constructor
    · rintro ⟨-, hend⟩
      omega
    · rintro ⟨hle, -⟩
      omega

/-- A pack whose header pad is not zero: accepted, and written differently. -/
def paddedPack : Bytes :=
  let body := rgbHeader.encode 0 [0xFF, 0, 0]
  body ++ rfpFooter 0 1 (Blake3.hash body)

theorem paddedPack_rewritten :
    readRfp Blake3.hash paddedPack = .ok (.complete rgbHeader []) ∧
      ∃ again, writeRfp Blake3.hash rgbHeader [] true = .ok again ∧ again ≠ paddedPack := by
  have hread : readRfp Blake3.hash paddedPack = .ok (.complete rgbHeader []) := by
    decide +kernel
  refine ⟨hread, packBytes Blake3.hash rgbHeader 0 [] true, writeRfp_eq_ok.mpr ⟨0, rfl, rfl⟩, ?_⟩
  decide +kernel

theorem rewrite_eq_iff_rgbFrame :
    ∃ again, writeRfp Blake3.hash rgbHeader [rgbFrame] true = .ok again ∧
      (again = packBytes Blake3.hash rgbHeader 0 [rgbFrame] true ↔
        rfpHeaderLen + rfpFooterLen ≤ (packBytes Blake3.hash rgbHeader 0 [rgbFrame] true).length ∧
          SitsAt (packBytes Blake3.hash rgbHeader 0 [rgbFrame] true) 33 (zeros 3) ∧
            ∀ off, FrameFrom (packBytes Blake3.hash rgbHeader 0 [rgbFrame] true) rfpHeaderLen off →
              off < (packBytes Blake3.hash rgbHeader 0 [rgbFrame] true).length - rfpFooterLen →
                SitsAt (packBytes Blake3.hash rgbHeader 0 [rgbFrame] true) (off + 13) (zeros 3)) := by
  have hlen : ∀ r ∈ [rgbFrame], r.bytes.length < 2 ^ 32 := by decide
  obtain ⟨fs, hpack⟩ := packAt_packBytes Blake3.hash rgbHeader 0 hlen true
  exact rewrite_eq_iff Blake3.hash (hpack.readRfp Blake3.hash rfl)

/-! ### One byte changed -/

section Flip

variable {blake3 : Bytes → Bytes32} {header : RfpHeader} {pixFmt : UInt8}
  {records : List RfpRecord}

def packBody (header : RfpHeader) (pixFmt : UInt8) (records : List RfpRecord) : Bytes :=
  header.encode pixFmt (zeros 3) ++ records.flatMap fun r => r.encode (zeros 3)

theorem packBytes_eq (complete : Bool) : packBytes blake3 header pixFmt records complete =
    packBody header pixFmt records ++ rfpFooter (UInt64.ofNat records.length)
      (if complete then 1 else 0) (blake3 (packBody header pixFmt records)) := rfl

theorem length_packBytes (complete : Bool) :
    (packBytes blake3 header pixFmt records complete).length =
      (packBody header pixFmt records).length + rfpFooterLen := by
  rw [packBytes_eq, List.length_append, length_rfpFooter]

theorem packBytes_set_flag (complete : Bool) :
    (packBytes blake3 header pixFmt records complete).set
      ((packBody header pixFmt records).length + 16) 1 =
        packBytes blake3 header pixFmt records true := by
  rw [packBytes_eq, packBytes_eq, List.set_append_right _ _ (Nat.le_add_right _ _),
    Nat.add_sub_cancel_left]
  rfl

/-- A byte changed before the footer is seen by the hash. -/
theorem set_not_complete_of_lt {b : Bytes} {fs i : Nat} {v : UInt8}
    (hfooter : FooterAt blake3 b fs) (hi : i < fs) (hne : b[i]? ≠ some v)
    (hinj : Set.InjOn blake3 {b.take fs, (b.set i v).take fs}) {header' : RfpHeader}
    {records' : List RfpRecord} :
    readRfp blake3 (b.set i v) ≠ .ok (.complete header' records') := by
  intro hread
  obtain ⟨-, fs', stop, ok, hpack⟩ := packRead_of_readRfp hread
  obtain ⟨hfooter', -⟩ := hpack.resumable_iff.mp rfl
  have hlength := hfooter.length_eq
  obtain rfl : fs' = fs := by
    have hlength' := hfooter'.length_eq
    rw [List.length_set, hlength] at hlength'
    exact (Nat.add_right_cancel hlength').symm
  have hhash : SitsAt b (fs' + 17) (blake3 ((b.set i v).take fs')).bytes :=
    (sitsAt_set_of_lt (by omega)).mp hfooter'.hash
  have heq : blake3 ((b.set i v).take fs') = blake3 (b.take fs') :=
    Bytes32.ext (hhash.unique hfooter.hash (by simp))
  have htake : (b.set i v).take fs' = b.take fs' := hinj (by simp) (by simp) heq
  apply hne
  have hget := congrArg (·[i]?) htake
  simp only [List.getElem?_take_of_lt hi] at hget
  rw [← hget, List.getElem?_set_self (by omega)]

theorem eq_packBytes_of_complete (hlen : ∀ r ∈ records, r.bytes.length < 2 ^ 32) {b : Bytes}
    (hbody : packBody header pixFmt records <+: b)
    (hlength : b.length = (packBody header pixFmt records).length + rfpFooterLen)
    {header' : RfpHeader} {records' : List RfpRecord}
    (hread : readRfp blake3 b = .ok (.complete header' records')) :
    b = packBytes blake3 header pixFmt records true := by
  obtain ⟨-, fs, stop, ok, hpack⟩ := packRead_of_readRfp hread
  obtain ⟨hfooter, rfl, hcount, hflag⟩ := hpack.resumable_iff.mp rfl
  obtain rfl : fs = (packBody header pixFmt records).length := by
    rw [hfooter.length_eq] at hlength
    exact Nat.add_right_cancel hlength
  have hbodyAt : SitsAt b 0 (packBody header pixFmt records) := (sitsAt_self _).of_cut hbody
  have hheaderLen : (header.encode pixFmt (zeros 3)).length = rfpHeaderLen :=
    RfpHeader.length_encode (length_zeros 3)
  have hbodyLen : (packBody header pixFmt records).length = rfpHeaderLen +
      (records.flatMap fun r => r.encode (zeros 3)).length := by
    rw [packBody, List.length_append, hheaderLen]
  have hrow : RecordsAt b (packBody header pixFmt records).length rfpHeaderLen records
      (packBody header pixFmt records).length := by
    have hsits := (sitsAt_append.mp hbodyAt).2
    rw [hheaderLen, Nat.zero_add] at hsits
    have hrow := recordsAt_of_flatMap hlen hsits hbodyLen.ge
    rwa [← hbodyLen] at hrow
  obtain ⟨rfl, -⟩ := hpack.records.unique hpack.zone.le_length hpack.stops hrow (.zone (le_refl _))
  refine ((packBytes_eq_iff hfooter.length_eq ?_).mpr ⟨hbodyAt, hbodyLen⟩).symm
  exact sitsAt_rfpFooter.mpr ⟨hfooter.magic, hcount, hflag, hfooter.hash⟩

/-- The only byte of a finished pack that can make it resumable is the flag
of an incomplete one. -/
theorem set_packBytes_complete_iff (hlen : ∀ r ∈ records, r.bytes.length < 2 ^ 32)
    (hformat : pixFmtToU8 header.desc.pixelFormat = .ok pixFmt) {complete : Bool} {i : Nat}
    {v : UInt8} (hi : i < (packBytes blake3 header pixFmt records complete).length)
    (hne : (packBytes blake3 header pixFmt records complete)[i]? ≠ some v)
    (hinj : Set.InjOn blake3
      {(packBytes blake3 header pixFmt records complete).take
          (packBody header pixFmt records).length,
        ((packBytes blake3 header pixFmt records complete).set i v).take
          (packBody header pixFmt records).length}) :
    (∃ header' records', readRfp blake3
        ((packBytes blake3 header pixFmt records complete).set i v) =
          .ok (.complete header' records')) ↔
      complete = false ∧ i = (packBody header pixFmt records).length + 16 ∧ v = 1 := by
  have hlength : ∀ c, (packBytes blake3 header pixFmt records c).length =
      (packBody header pixFmt records).length + rfpFooterLen := length_packBytes
  constructor
  · rintro ⟨header', records', hread⟩
    obtain ⟨fs, hpack⟩ := packAt_packBytes blake3 header pixFmt hlen complete
    obtain rfl : fs = (packBody header pixFmt records).length := by
      have hlen' := hpack.footerAt.length_eq
      rw [hlength] at hlen'
      exact (Nat.add_right_cancel hlen').symm
    have hle : (packBody header pixFmt records).length ≤ i := by
      by_contra hlt
      exact set_not_complete_of_lt hpack.footerAt (not_le.mp hlt) hne hinj hread
    have hbody : packBody header pixFmt records <+:
        (packBytes blake3 header pixFmt records complete).set i v := by
      rw [packBytes_eq, List.set_append_right _ _ hle]
      exact List.prefix_append _ _
    have heq := eq_packBytes_of_complete hlen hbody
      (by rw [List.length_set, hlength]) hread
    rw [← packBytes_set_flag complete] at heq
    -- At `i` the two sides differ unless `i` is the flag.
    have hget := congrArg (·[i]?) heq
    simp only [List.getElem?_set_self hi] at hget
    by_cases hflag : (packBody header pixFmt records).length + 16 = i
    · subst hflag
      rw [List.getElem?_set_self hi] at hget
      obtain rfl := Option.some.inj hget
      refine ⟨?_, rfl, rfl⟩
      cases complete with
      | false => rfl
      | true =>
          rw [← packBytes_set_flag true, List.getElem?_set_self hi] at hne
          exact absurd rfl hne
    · rw [List.getElem?_set_ne hflag] at hget
      exact absurd hget.symm hne
  · rintro ⟨rfl, rfl, rfl⟩
    obtain ⟨fs, hpack⟩ := packAt_packBytes blake3 header pixFmt hlen true
    rw [packBytes_set_flag]
    exact ⟨header, records, hpack.readRfp blake3 hformat⟩

/-- A payload of `2 ^ 32` bytes is written with length zero, so that it is read
as a record if it is one. -/
theorem packBody_oversize {r inner : RfpRecord} (hbytes : r.bytes = inner.encode (zeros 3))
    (hinner : inner.encodedLen = 2 ^ 32) :
    packBody header pixFmt [r] = packBody header pixFmt [{ r with bytes := [] }, inner] := by
  have hlen : r.bytes.length = 2 ^ 32 := by
    rw [hbytes, RfpRecord.length_encode (length_zeros 3), hinner]
  have hzero : UInt32.ofNat (2 ^ 32) = UInt32.ofNat ([] : Bytes).length := rfl
  have hencode : r.encode (zeros 3) =
      ({ r with bytes := [] } : RfpRecord).encode (zeros 3) ++ inner.encode (zeros 3) := by
    rw [RfpRecord.encode, hlen, hzero, hbytes]
    simp only [RfpRecord.encode, List.append_assoc, List.append_nil]
  simp only [packBody, List.flatMap_cons, List.flatMap_nil, List.append_nil, hencode]

theorem packBytes_set_count {r q q' : RfpRecord}
    (hbody : packBody header pixFmt [r] = packBody header pixFmt [q, q']) :
    (packBytes blake3 header pixFmt [r] true).set ((packBody header pixFmt [r]).length + 8) 2 =
      packBytes blake3 header pixFmt [q, q'] true := by
  rw [packBytes_eq, packBytes_eq, List.set_append_right _ _ (Nat.le_add_right _ _),
    Nat.add_sub_cancel_left, ← hbody]
  simp [rfpFooter, rfpEndMagic, le64, leBytes]

theorem packBytes_count_ne {r : RfpRecord} :
    (packBytes blake3 header pixFmt [r] true)[(packBody header pixFmt [r]).length + 8]? ≠
      some 2 := by
  rw [packBytes_eq, List.getElem?_append_right (Nat.le_add_right _ _), Nat.add_sub_cancel_left]
  simp [rfpFooter, rfpEndMagic, le64, leBytes]

/-- What is not resumable is refused: an error, or torn. -/
theorem refused_iff {b : Bytes} :
    ((∃ e, readRfp blake3 b = .err e) ∨
      ∃ header' records', readRfp blake3 b = .ok (.torn header' records')) ↔
      ¬∃ header' records', readRfp blake3 b = .ok (.complete header' records') := by
  rcases readRfpHeader_cases b with ⟨h, hh, -⟩ | ⟨e, he, -⟩
  · obtain ⟨out, zoneEnd, stop, ok, hread, -, -⟩ := readRfp_spec blake3 hh
    rw [hread]
    cases out <;> simp
  · rw [readRfp, he, err_bind]
    simp

end Flip

/-- A finished pack with one byte changed is refused, unless the byte is the
flag of an incomplete pack and is set to one: the hash does not cover it. -/
theorem readRfp_set_refused_iff (blake3 : Bytes → Bytes32) {header : RfpHeader}
    {records : List RfpRecord} {complete : Bool} {pack : Bytes}
    (hlen : ∀ r ∈ records, r.bytes.length < 2 ^ 32)
    (hwrite : writeRfp blake3 header records complete = .ok pack) {i : Nat} {v : UInt8}
    (hi : i < pack.length) (hne : pack[i]? ≠ some v)
    (hinj : Set.InjOn blake3 {pack.take (pack.length - rfpFooterLen),
      (pack.set i v).take (pack.length - rfpFooterLen)}) :
    ((∃ e, readRfp blake3 (pack.set i v) = .err e) ∨
      ∃ header' records', readRfp blake3 (pack.set i v) = .ok (.torn header' records')) ↔
      ¬(complete = false ∧ i = pack.length - 33 ∧ v = 1) := by
  obtain ⟨pixFmt, hformat, rfl⟩ := writeRfp_eq_ok.mp hwrite
  have h49 : rfpFooterLen = 49 := rfl
  have hflag : (packBytes blake3 header pixFmt records complete).length - 33 =
      (packBody header pixFmt records).length + 16 := by
    rw [length_packBytes]
    omega
  rw [length_packBytes, Nat.add_sub_cancel] at hinj
  rw [refused_iff, set_packBytes_complete_iff hlen hformat hi hne hinj, hflag]

/-- A frame whose payload is a record with `n` zero bytes. -/
def nestedFrame (n : Nat) : RfpRecord :=
  { rgbFrame with bytes := ({ rgbFrame with bytes := zeros n } : RfpRecord).encode (zeros 3) }

theorem nestedFrame_set_count {n : Nat} (hn : rfpRecordHeaderLen + n = 2 ^ 32) :
    ∃ pack i v header' records',
      writeRfp Blake3.hash rgbHeader [nestedFrame n] true = .ok pack ∧
        i < pack.length ∧ pack[i]? ≠ some v ∧
          readRfp Blake3.hash (pack.set i v) = .ok (.complete header' records') := by
  have h28 : rfpRecordHeaderLen = 28 := rfl
  have h49 : rfpFooterLen = 49 := rfl
  have hinner : ({ rgbFrame with bytes := zeros n } : RfpRecord).encodedLen = 2 ^ 32 := by
    rw [RfpRecord.encodedLen, length_zeros, hn]
  have hbody : packBody rgbHeader 0 [nestedFrame n] = _ := packBody_oversize rfl hinner
  have hformat : pixFmtToU8 rgbHeader.desc.pixelFormat = .ok 0 := rfl
  have hlen : ∀ r ∈ [{ nestedFrame n with bytes := [] },
      ({ rgbFrame with bytes := zeros n } : RfpRecord)], r.bytes.length < 2 ^ 32 := by
    intro r hr
    rcases List.mem_pair.mp hr with rfl | rfl
    · exact Nat.two_pow_pos 32
    · rw [length_zeros]
      omega
  obtain ⟨fs, hpack⟩ := packAt_packBytes Blake3.hash rgbHeader 0 hlen true
  have hread := hpack.readRfp Blake3.hash hformat
  rw [← packBytes_set_count hbody] at hread
  refine ⟨_, _, _, _, _, writeRfp_eq_ok.mpr ⟨0, hformat, rfl⟩, ?_, packBytes_count_ne, hread⟩
  rw [length_packBytes]
  omega

/-- The flag of an incomplete pack can be set; and where a payload is as long
as its length field can count, the record count can be changed. -/
theorem set_reads_complete :
    (∃ pack i v, writeRfp Blake3.hash rgbHeader [rgbFrame] false = .ok pack ∧
      i < pack.length ∧ pack[i]? ≠ some v ∧
        readRfp Blake3.hash (pack.set i v) = .ok (.complete rgbHeader [rgbFrame])) ∧
    (∃ pack i v header' records',
      writeRfp Blake3.hash rgbHeader [nestedFrame (2 ^ 32 - 28)] true = .ok pack ∧
        i < pack.length ∧ pack[i]? ≠ some v ∧
          readRfp Blake3.hash (pack.set i v) = .ok (.complete header' records')) := by
  constructor
  · refine ⟨packBytes Blake3.hash rgbHeader 0 [rgbFrame] false, 108, 1,
      writeRfp_eq_ok.mpr ⟨0, rfl, rfl⟩, ?_, ?_, ?_⟩
    · decide +kernel
    · decide +kernel
    · decide +kernel
  · exact nestedFrame_set_count (by norm_num [rfpRecordHeaderLen])

/-- A byte of the one payload. -/
theorem readRfp_set_refused_iff_rgbFrame :
    ∃ pack, writeRfp Blake3.hash rgbHeader [rgbFrame] true = .ok pack ∧ pack.length = 141 ∧
      pack[90]? = some 0 ∧ ((∃ e, readRfp Blake3.hash (pack.set 90 1) = .err e) ∨
        ∃ header' records', readRfp Blake3.hash (pack.set 90 1) = .ok (.torn header' records')) := by
  have hwrite : writeRfp Blake3.hash rgbHeader [rgbFrame] true =
      .ok (packBytes Blake3.hash rgbHeader 0 [rgbFrame] true) := writeRfp_eq_ok.mpr ⟨0, rfl, rfl⟩
  have hlength : (packBytes Blake3.hash rgbHeader 0 [rgbFrame] true).length = 141 := by
    decide +kernel
  have hbyte : (packBytes Blake3.hash rgbHeader 0 [rgbFrame] true)[90]? = some 0 := by
    decide +kernel
  have hinj : Set.InjOn Blake3.hash {(packBytes Blake3.hash rgbHeader 0 [rgbFrame] true).take
      ((packBytes Blake3.hash rgbHeader 0 [rgbFrame] true).length - rfpFooterLen),
      ((packBytes Blake3.hash rgbHeader 0 [rgbFrame] true).set 90 1).take
        ((packBytes Blake3.hash rgbHeader 0 [rgbFrame] true).length - rfpFooterLen)} := by
    have hne : Blake3.hash ((packBytes Blake3.hash rgbHeader 0 [rgbFrame] true).take
        ((packBytes Blake3.hash rgbHeader 0 [rgbFrame] true).length - rfpFooterLen)) ≠
        Blake3.hash (((packBytes Blake3.hash rgbHeader 0 [rgbFrame] true).set 90 1).take
          ((packBytes Blake3.hash rgbHeader 0 [rgbFrame] true).length - rfpFooterLen)) := by
      decide +kernel
    exact Set.injOn_pair.mpr fun heq => absurd heq hne
  have hiff := readRfp_set_refused_iff Blake3.hash (by decide) hwrite
    (show 90 < _ by rw [hlength]; decide) (show _ ≠ some 1 by rw [hbyte]; decide) hinj
  exact ⟨_, hwrite, hlength, hbyte, hiff.mpr (by simp)⟩

end ReplayRenderer
