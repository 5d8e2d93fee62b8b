import ReplayRenderer.MockHv.ReadBack

/-!
The same script with its epoch hashes and without them. The omitted records
are a rank of the emissions, and taking a rank out of a list commutes with
sorting it; the records that stay are those of the same execution, since no
record depends on what was emitted before it but for its number. What the
flag changes beside the records is how many there are: with its epochs a
script can have more than a segment can number.
-/

namespace ReplayRenderer

open Lib Lib.Outcome

def SegmentSpec.omitting (spec : SegmentSpec) (omitEpochHashes : Bool) : SegmentSpec :=
  { spec with omitEpochHashes }

theorem SegmentSpec.omitting_self (spec : SegmentSpec) :
    spec.omitting spec.omitEpochHashes = spec := rfl

theorem Writable.omitting {spec : SegmentSpec} {o : Bool} (h : Writable (spec.omitting o))
    (o' : Bool) : Writable (spec.omitting o') where
  sorted := h.sorted
  events_le := h.events_le
  frames_le := h.frames_le
  skew_le := h.skew_le
  fits := h.fits
  clockDen_ne := h.clockDen_ne
  endVns_lt := h.endVns_lt

theorem recordCount_omitting_le (spec : SegmentSpec) (o : Bool) :
    (spec.omitting true).recordCount ≤ (spec.omitting o).recordCount := by
  have hcount : (spec.omitting true).epochCount ≤ (spec.omitting o).epochCount := Nat.zero_le _
  unfold SegmentSpec.recordCount
  exact Nat.add_le_add_right (Nat.add_le_add_right (Nat.add_le_add_right hcount _) _) _

/-! ### The order without its epochs -/

def withoutEpochs (S : List Scheduled) : List Scheduled :=
  S.filter fun e => e.emission.rank ≠ 0

theorem withoutEpochs_append {S S' : List Scheduled} :
    withoutEpochs (S ++ S') = withoutEpochs S ++ withoutEpochs S' := List.filter_append ..

theorem withoutEpochs_eq_self {S : List Scheduled} (h : ∀ e ∈ S, e.emission.rank ≠ 0) :
    withoutEpochs S = S :=
  List.filter_eq_self.mpr fun e he => decide_eq_true (h e he)

theorem withoutEpochs_merged (spec : SegmentSpec) :
    withoutEpochs (spec.omitting false).merged = (spec.omitting true).merged := by
  have hepochs : ∀ n, withoutEpochs (epochSchedule n) = [] := by
    intro n
    apply List.filter_eq_nil_iff.mpr
    intro e he hrank
    obtain ⟨k, -, -, rfl⟩ := mem_epochSchedule he
    exact of_decide_eq_true hrank rfl
  have hskew : withoutEpochs spec.skewSchedule = spec.skewSchedule := by
    apply withoutEpochs_eq_self
    intro e he
    obtain ⟨at_, -, rfl⟩ := mem_skewSchedule he
    exact Nat.one_ne_zero
  have hevents : withoutEpochs spec.eventEmissions = spec.eventEmissions := by
    apply withoutEpochs_eq_self
    intro e he
    obtain ⟨ev, -, -, hem⟩ := mem_eventEmissions he
    rw [hem]
    exact Nat.succ_ne_zero 1
  have hframes : withoutEpochs spec.frameEmissions = spec.frameEmissions := by
    apply withoutEpochs_eq_self
    intro e he
    obtain ⟨fm, -, -, hem⟩ := mem_frameEmissions he
    rw [hem]
    exact Nat.succ_ne_zero 2
  have hend : withoutEpochs [spec.endEmission] = [spec.endEmission] := by
    apply withoutEpochs_eq_self
    intro e he
    obtain rfl := List.mem_singleton.mp he
    exact Nat.succ_ne_zero 3
  calc withoutEpochs (spec.omitting false).merged
      = withoutEpochs (epochSchedule (spec.omitting false).epochCount ++ spec.skewSchedule
          ++ spec.eventEmissions ++ spec.frameEmissions ++ [spec.endEmission]) := rfl
    _ = [] ++ spec.skewSchedule ++ spec.eventEmissions ++ spec.frameEmissions
          ++ [spec.endEmission] := by
        rw [withoutEpochs_append, withoutEpochs_append, withoutEpochs_append,
          withoutEpochs_append, hepochs, hskew, hevents, hframes, hend]
    _ = (spec.omitting true).merged := rfl

/-- The order of what is left is what is left of the order. -/
theorem order_omitting (spec : SegmentSpec) :
    (spec.omitting true).order = withoutEpochs (spec.omitting false).order := by
  rw [SegmentSpec.order, SegmentSpec.order, withoutEpochs, filter_insertionSort, ← withoutEpochs,
    withoutEpochs_merged]

/-! ### The records without their epochs -/

def dropEpochHashes (rs : List Record) : List Record :=
  rs.filter fun r => ¬(r.isAux = true ∧ r.kind = kindEpochHash)

/-- The records with their numbers counted anew, from `seq` on. -/
def renumberFrom (seq : Nat) (rs : List Record) : List Record :=
  (rs.zipIdx seq).map fun p => { p.1 with seq := UInt32.ofNat p.2 }

section Records

variable {blake3 : Bytes → Bytes32} {seed : Bytes32} {l : List Moment}

/-- Only the number of a record depends on where it stands. -/
theorem record_renumbered {e : Scheduled} {seq : Nat} {r : Record}
    (h : e.record blake3 seed l seq = some r) (seq' : Nat) :
    e.record blake3 seed l seq' = some { r with seq := UInt32.ofNat seq' } := by
  obtain ⟨t, tie, emission⟩ := e
  cases emission with
  | skew => cases h
  | epochHash k =>
      obtain rfl := Option.some.inj h
      rfl
  | canonical ev =>
      obtain rfl := Option.some.inj h
      rfl
  | frameMark i =>
      obtain rfl := Option.some.inj h
      rfl
  | end_ =>
      obtain rfl := Option.some.inj h
      rfl

/-- The records of what is left are what is left of the records. -/
theorem recordsOf_withoutEpochs {S : List Scheduled} {seq seq' : Nat} :
    recordsOf blake3 seed l seq' (withoutEpochs S) =
      renumberFrom seq' (dropEpochHashes (recordsOf blake3 seed l seq S)) := by
  induction S generalizing seq seq' with
  | nil => rfl
  | cons e S ih =>
      rw [recordsOf]
      cases hrec : e.record blake3 seed l seq with
      | none =>
          have hkeep : withoutEpochs (e :: S) = e :: withoutEpochs S := by
            apply List.filter_cons_of_pos
            rw [record_eq_none.mp hrec]
            rfl
          have hrec' : e.record blake3 seed l seq' = none :=
            record_eq_none.mpr (record_eq_none.mp hrec)
          rw [hkeep, recordsOf, hrec']
          exact ih
      | some r =>
          have hepoch := (recordOf_record hrec).1.isAux_and_kind.1
          by_cases hrank : e.emission.rank = 0
          · have hskip : withoutEpochs (e :: S) = withoutEpochs S :=
              List.filter_cons_of_neg (by simpa using hrank)
            have hdrop : ∀ rs, dropEpochHashes (r :: rs) = dropEpochHashes rs := fun rs =>
              List.filter_cons_of_neg (by simpa using hepoch.mpr hrank)
            rw [hskip, Option.toList_some, List.singleton_append, hdrop]
            exact ih
          · have hkeep : withoutEpochs (e :: S) = e :: withoutEpochs S :=
              List.filter_cons_of_pos (decide_eq_true hrank)
            have hpick : ∀ rs, dropEpochHashes (r :: rs) = r :: dropEpochHashes rs := fun rs =>
              List.filter_cons_of_pos (decide_eq_true (mt hepoch.mp hrank))
            have hrest := @ih (seq + [r].length) (seq' + 1)
            rw [hkeep, recordsOf, record_renumbered hrec, Option.toList_some, Option.toList_some,
              List.singleton_append, List.singleton_append, hpick, List.length_singleton, hrest]
            rfl

end Records

theorem recordList_omitting (blake3 : Bytes → Bytes32) (spec : SegmentSpec) :
    (spec.omitting true).recordList blake3 =
      renumberFrom 0 (dropEpochHashes ((spec.omitting false).recordList blake3)) := by
  rw [SegmentSpec.recordList, order_omitting]
  exact recordsOf_withoutEpochs

/-! ### The two segments -/

structure OmitsEpochHashes (full omitted : DhilogSegment) : Prop where
  header : omitted.header = { full.header with
    flags := omitted.header.flags
    recordCount := omitted.header.recordCount
    bodyHash := omitted.header.bodyHash }
  flags : full.header.flags = omitted.header.flags ||| flagEpochHashes
  flag_clear : omitted.header.flags &&& flagEpochHashes = 0
  records : ∃ rs, (full.records : Outcome DhilogError _) = .ok (rs.map framed) ∧
    (omitted.records : Outcome DhilogError _) =
      .ok ((renumberFrom 0 (dropEpochHashes rs)).map framed)

section Segments

variable {blake3 : Bytes → Bytes32} {ε : Type} {spec : SegmentSpec}

theorem header_of_writeSegment {bytes : Bytes} {hash : Bytes32} {segment : DhilogSegment}
    (h : (writeSegment blake3 spec : Outcome ε _) = .ok (bytes, hash))
    (hparse : DhilogSegment.parse bytes = .ok segment) :
    ∃ recordCount bodyHash, segment.header =
      spec.header spec.flags recordCount spec.endVns hash bodyHash := by
  obtain ⟨-, -, -, -, -, -, -, w, -, hbytes, rfl⟩ := writeSegment_eq_ok.mp h
  obtain rfl : w.segment blake3 spec = segment :=
    Outcome.ok.inj ((DhilogSegment.parse_eq_ok.mpr hbytes.symm).symm.trans hparse)
  exact ⟨_, _, rfl⟩

theorem omitsEpochHashes_of_writeSegment {bytes bytes' : Bytes} {hash hash' : Bytes32}
    (hfull : (writeSegment blake3 (spec.omitting false) : Outcome ε _) = .ok (bytes, hash))
    (homit : (writeSegment blake3 (spec.omitting true) : Outcome ε _) = .ok (bytes', hash')) :
    hash' = hash ∧ ∃ full omitted, DhilogSegment.parse bytes = .ok full ∧
      DhilogSegment.parse bytes' = .ok omitted ∧ OmitsEpochHashes full omitted := by
  obtain ⟨full, hparse, hw⟩ := writtenAs_of_writeSegment hfull
  obtain ⟨omitted, hparse', hw'⟩ := writtenAs_of_writeSegment homit
  obtain ⟨recordCount, bodyHash, hheader⟩ := header_of_writeSegment hfull hparse
  obtain ⟨recordCount', bodyHash', hheader'⟩ := header_of_writeSegment homit hparse'
  -- the recording does not know of the flag
  obtain rfl : hash' = hash := hw'.hash_eq.trans hw.hash_eq.symm
  refine ⟨rfl, full, omitted, hparse, hparse', ?_, ?_, ?_, _, hw.records, ?_⟩
  · rw [hheader, hheader']
    rfl
  · rw [hheader, hheader']
    rfl
  · have hclear : (flagSealed ||| flagHasAux) &&& flagEpochHashes = 0 := by decide
    rw [hheader']
    exact hclear
  · rw [hw'.records, recordList_omitting]

/-- A script that is written can be written without its epochs, and with them
unless there are too many records then; and the two segments differ in those
records, in the numbers of the others and in what the header counts and hashes. -/
theorem writeSegment_omitting {written : Bytes × Bytes32}
    (h : (writeSegment blake3 spec : Outcome ε _) = .ok written) :
    ((∃ written', (writeSegment blake3 (spec.omitting false) : Outcome ε _) = .ok written') ↔
        (spec.omitting false).recordCount < 2 ^ 32) ∧
      ∃ bytes' hash', (writeSegment blake3 (spec.omitting true) : Outcome ε _) =
          .ok (bytes', hash') ∧
        ∀ bytes hash, (writeSegment blake3 (spec.omitting false) : Outcome ε _) =
            .ok (bytes, hash) →
          hash' = hash ∧ ∃ full omitted, DhilogSegment.parse bytes = .ok full ∧
            DhilogSegment.parse bytes' = .ok omitted ∧ OmitsEpochHashes full omitted := by
  rw [← spec.omitting_self] at h
  obtain ⟨hwritable, hbound, hcount⟩ := exists_writeSegment_iff.mp ⟨_, h⟩
  have hcount' := lt_of_le_of_lt (recordCount_omitting_le spec spec.omitEpochHashes) hcount
  obtain ⟨⟨bytes', hash'⟩, homit⟩ : ∃ written', (writeSegment blake3 (spec.omitting true) :
      Outcome ε _) = .ok written' :=
    exists_writeSegment_iff.mpr ⟨hwritable.omitting true, hbound, hcount'⟩
  refine ⟨?_, bytes', hash', homit, fun bytes hash hfull =>
    omitsEpochHashes_of_writeSegment hfull homit⟩
  rw [exists_writeSegment_iff]
  exact ⟨fun hfull => hfull.2.2, fun hlt => ⟨hwritable.omitting false, hbound, hlt⟩⟩

end Segments

theorem writeSegment_omitting_crowdedScript :
    ∃ written bytes' hash', (writeSegment Blake3.hash (crowdedScript.omitting false) :
        Outcome Empty _) = .ok written ∧
      (writeSegment Blake3.hash (crowdedScript.omitting true) : Outcome Empty _) =
        .ok (bytes', hash') ∧
      hash' = written.2 ∧ ∃ full omitted, DhilogSegment.parse written.1 = .ok full ∧
        DhilogSegment.parse bytes' = .ok omitted ∧ OmitsEpochHashes full omitted := by
  obtain ⟨bytes, hash, hwrite⟩ := exists_writeSegment Blake3.hash Empty writable_crowdedScript
    (bounded_of_lt (by decide)) (by decide)
  obtain ⟨-, bytes', hash', homit, hboth⟩ := writeSegment_omitting hwrite
  obtain ⟨hhash, hsegments⟩ := hboth bytes hash hwrite
  exact ⟨(bytes, hash), bytes', hash', hwrite, homit, hhash, hsegments⟩

/-- A script without events that is too long for its epochs to be numbered. -/
def longScript : SegmentSpec :=
  { baseSnapshotId := Bytes32.fill 1
    endSnapshotId := Bytes32.fill 2
    entropySeed := Bytes32.fill 3
    machineConfigHash := Bytes32.fill 4
    clockNum := 1
    clockDen := 1
    endIcount := 17592186044416
    events := []
    frameMarks := []
    skewAt := none
    omitEpochHashes := true }

theorem writable_longScript : Writable longScript where
  sorted := by decide
  events_le := by decide
  frames_le := by decide
  skew_le := by
    intro at_ hat
    cases hat
  fits := by decide
  clockDen_ne := by decide
  endVns_lt := by decide

/-- Written without its epochs, and a panic with them. -/
theorem longScript_epochs_panic :
    longScript.endIcount.toNat + mockEpochIcounts < 2 ^ 64 ∧
      (∃ written, (writeSegment Blake3.hash longScript : Outcome Empty _) = .ok written) ∧
      (writeSegment Blake3.hash (longScript.omitting false) : Outcome Empty _) = .panic := by
  have hend : longScript.endIcount.toNat + mockEpochIcounts < 2 ^ 64 := by decide
  refine ⟨hend, exists_writeSegment_iff.mpr
    ⟨writable_longScript, bounded_of_lt hend, by decide⟩, ?_⟩
  cases hwrite : (writeSegment Blake3.hash (longScript.omitting false) : Outcome Empty _) with
  | ok written =>
      obtain ⟨-, -, hcount⟩ := exists_writeSegment_iff.mp ⟨written, hwrite⟩
      exact absurd hcount (by decide)
  | err e => cases e
  | panic => rfl

end ReplayRenderer
