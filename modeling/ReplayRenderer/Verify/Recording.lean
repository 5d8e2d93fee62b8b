import ReplayRenderer.MockHv.ReadBack
import ReplayRenderer.Verify.Mock

/-!
A written recording as the mock reads it. Nothing in it stops a replay, its
canonical records fold the script's timeline, and its epochs are the
recorded chain at every boundary.
-/

namespace ReplayRenderer

open Lib Lib.Outcome

def Record.folds (r : Record) : List Moment :=
  if r.isAux = true then [] else [(r.icount.toNat, r.kind :: r.payload)]

theorem Record.fst_of_mem_folds {r : Record} {m : Moment} (h : m ∈ r.folds) :
    m.1 = r.icount.toNat := by
  unfold Record.folds at h
  split at h
  · cases h
  · rw [List.mem_singleton.mp h]

structure Replayable (end_ : Nat) (rs : List Record) : Prop where
  sorted : rs.Pairwise fun r r' => r.icount.toNat ≤ r'.icount.toNat
  icount_le : ∀ r ∈ rs, r.icount.toNat ≤ end_
  canonical : ∀ r ∈ rs, r.isAux = false →
    r.kind = kindPadSet ∨ r.kind = kindDevEvent ∨ r.kind = kindNetRx
  atEnd : ∀ r ∈ rs, r.isAux = true → r.kind = kindEnd → r.icount.toNat = end_
  epochs : ∀ r ∈ rs, r.isAux = true → r.kind = kindEpochHash → r.payload.length = 40

def Record.IsEpoch (r : Record) : Prop :=
  r.isAux = true ∧ r.kind = kindEpochHash ∧ r.payload.length = 40

theorem recordedEpochs_epoch {ε : Type} {r : Record} {items : List RecordItem}
    {epoch : RecordedEpoch} (h : r.IsEpoch) (hdecode : (r.decodeEpoch : Outcome ε _) = .ok epoch) :
    (recordedEpochs (framed r :: items) : Outcome ε _) =
      (recordedEpochs items >>= fun epochs => pure (epoch :: epochs)) := by
  unfold Record.IsEpoch at h
  rw [framed, recordedEpochs, if_pos h, hdecode, ok_bind]

theorem recordedEpochs_other {ε : Type} {r : Record} {items : List RecordItem} (h : ¬r.IsEpoch) :
    (recordedEpochs (framed r :: items) : Outcome ε _) = recordedEpochs items := by
  unfold Record.IsEpoch at h
  rw [framed, recordedEpochs, if_neg h]

section Records

variable {blake3 : Bytes → Bytes32} {seed : Bytes32} {l : List Moment}

theorem replayable_recordsOf {end_ seq : Nat} {S : List Scheduled} (hend : end_ < u64Bound)
    (hle : ∀ e ∈ S, e.icount ≤ end_) (hsorted : S.Pairwise fun e e' => e.icount ≤ e'.icount)
    (hatEnd : ∀ e ∈ S, e.emission = .end_ → e.icount = end_) :
    Replayable end_ (recordsOf blake3 seed l seq S) := by
  have hlt : ∀ e ∈ S, e.icount < u64Bound := fun e he => lt_of_le_of_lt (hle e he) hend
  refine ⟨pairwise_recordsOf hlt hsorted, ?_, ?_, ?_, ?_⟩
  · intro r hr
    obtain ⟨e, he, hrec⟩ := exists_of_mem_recordsOf hr
    rw [hrec.toNat_icount (hlt e he)]
    exact hle e he
  · intro r hr haux
    obtain ⟨e, he, hrec⟩ := exists_of_mem_recordsOf hr
    exact hrec.kind_of_canonical haux
  · intro r hr haux hkind
    obtain ⟨e, he, hrec⟩ := exists_of_mem_recordsOf hr
    rw [hrec.toNat_icount (hlt e he)]
    exact hatEnd e he (hrec.emission_of_end haux hkind)
  · intro r hr haux hkind
    obtain ⟨e, he, hrec⟩ := exists_of_mem_recordsOf hr
    exact hrec.length_of_epochHash haux hkind

/-! ### What is folded -/

theorem flatMap_folds_record {e : Scheduled} {seq : Nat} (hlt : e.icount < u64Bound) :
    (e.record blake3 seed l seq).toList.flatMap Record.folds =
      (ofRank 2 [e]).flatMap Scheduled.folds := by
  have hicount : (UInt64.ofNat e.icount).toNat = e.icount := UInt64.toNat_ofNat_of_lt' hlt
  unfold Scheduled.record
  cases hem : e.emission with
  | epochHash k => simp [ofRank, hem, Emission.rank, Record.folds, Record.isAux, rflagAux]
  | skew => simp [ofRank, hem, Emission.rank]
  | canonical ev =>
      simp [ofRank, hem, Emission.rank, Record.folds, Record.isAux, Scheduled.folds, hicount]
  | frameMark i => simp [ofRank, hem, Emission.rank, Record.folds, Record.isAux, rflagAux]
  | end_ => simp [ofRank, hem, Emission.rank, Record.folds, Record.isAux, rflagAux]

theorem flatMap_folds_recordsOf {S : List Scheduled} {seq : Nat}
    (hlt : ∀ e ∈ S, e.icount < u64Bound) :
    (recordsOf blake3 seed l seq S).flatMap Record.folds =
      (ofRank 2 S).flatMap Scheduled.folds := by
  induction S generalizing seq with
  | nil => rfl
  | cons e S ih =>
      rw [recordsOf, List.flatMap_append, ih fun e' he' => hlt e' (List.mem_cons_of_mem e he'),
        flatMap_folds_record (hlt e (List.mem_cons_self ..)), ← List.flatMap_append,
        ← ofRank_append, List.singleton_append]

/-! ### The recorded epochs -/

def Scheduled.epoch (blake3 : Bytes → Bytes32) (seed : Bytes32) (l : List Moment)
    (e : Scheduled) : Option RecordedEpoch :=
  match e.emission with
  | .epochHash k => some ⟨UInt64.ofNat k, e.icount, chainAfter blake3 seed l k⟩
  | _ => none

theorem decodeEpoch_record {ε : Type} {r : Record} {k : Nat} {c : Bytes32}
    (hpayload : r.payload = leBytes 8 k ++ c.bytes) (hk : k < u64Bound) :
    (r.decodeEpoch : Outcome ε RecordedEpoch) = .ok ⟨UInt64.ofNat k, r.icount.toNat, c⟩ := by
  have hself := sitsAt_self r.payload
  rw [hpayload, sitsAt_append, length_leBytes, ← hpayload] at hself
  have hindex : (u64At r.payload 0 : Outcome ε UInt64) = .ok (UInt64.ofNat k) := by
    rw [u64At_eq_ok, le64_ofNat hk]
    exact hself.1
  have hchain : (bytes32At r.payload 8 : Outcome ε Bytes32) = .ok c :=
    bytes32At_eq_ok.mpr hself.2
  rw [Record.decodeEpoch, hindex, ok_bind, hchain, ok_bind, pure_eq]

theorem not_epoch_record {e : Scheduled} {seq : Nat} {r : Record}
    (h : e.record blake3 seed l seq = some r) (hem : ∀ k, e.emission ≠ .epochHash k) :
    ¬r.IsEpoch := by
  rintro ⟨haux, hkind, -⟩
  have hrank := (recordOf_record h).1.isAux_and_kind.1.mp ⟨haux, hkind⟩
  cases he : e.emission with
  | epochHash k => exact hem k he
  | _ => simp [he, Emission.rank] at hrank

theorem recordedEpochs_recordsOf {ε : Type} {S : List Scheduled} {seq : Nat}
    (hlt : ∀ e ∈ S, e.icount < u64Bound)
    (hk : ∀ e ∈ S, ∀ k, e.emission = .epochHash k → k < u64Bound) :
    (recordedEpochs ((recordsOf blake3 seed l seq S).map framed) : Outcome ε _) =
      .ok (S.filterMap (Scheduled.epoch blake3 seed l)) := by
  induction S generalizing seq with
  | nil => rfl
  | cons e S ih =>
      have hrest : ∀ seq, (recordedEpochs ((recordsOf blake3 seed l seq S).map framed) :
          Outcome ε _) = .ok (S.filterMap (Scheduled.epoch blake3 seed l)) := fun seq =>
        ih (fun e' he' => hlt e' (List.mem_cons_of_mem e he'))
          fun e' he' => hk e' (List.mem_cons_of_mem e he')
      by_cases hepoch : ∃ k, e.emission = .epochHash k
      · -- its record decodes to the epoch it was written for
        obtain ⟨k, hem⟩ := hepoch
        have hrec : e.record blake3 seed l seq = some
            { kind := kindEpochHash
              rflags := rflagAux
              seq := UInt32.ofNat seq
              icount := UInt64.ofNat e.icount
              boundaryRip := boundaryRip (UInt64.ofNat e.icount)
              payload := leBytes 8 k ++ (chainAfter blake3 seed l k).bytes } := by
          rw [Scheduled.record, hem]
        have hicount := (recordOf_record hrec).1.toNat_icount (hlt e (List.mem_cons_self ..))
        have hself : e.epoch blake3 seed l =
            some ⟨UInt64.ofNat k, e.icount, chainAfter blake3 seed l k⟩ := by
          rw [Scheduled.epoch, hem]
        rw [recordsOf, hrec, Option.toList_some, List.singleton_append, List.map_cons,
          recordedEpochs_epoch (by simp [Record.IsEpoch, Record.isAux, rflagAux])
            (decodeEpoch_record rfl (hk e (List.mem_cons_self ..) k hem)),
          hrest, ok_bind, pure_eq, hicount, List.filterMap_cons_some hself]
      · have hem : ∀ k, e.emission ≠ .epochHash k := fun k hk => hepoch ⟨k, hk⟩
        have hnone : e.epoch blake3 seed l = none := by
          unfold Scheduled.epoch
          split
          · rename_i k hk
            exact absurd hk (hem k)
          · rfl
        rw [recordsOf, List.filterMap_cons_none hnone]
        cases hrec : e.record blake3 seed l seq with
        | none => exact hrest _
        | some r =>
            rw [Option.toList_some, List.singleton_append, List.map_cons,
              recordedEpochs_other (not_epoch_record hrec hem)]
            exact hrest _

end Records

/-! ### A written segment -/

section Segment

variable {blake3 : Bytes → Bytes32} {spec : SegmentSpec} {at_ : UInt64}

def epochsOf (blake3 : Bytes → Bytes32) (seed : Bytes32) (l : List Moment) (n : Nat) :
    List RecordedEpoch :=
  (List.range' 1 n).map fun k =>
    { epochIndex := UInt64.ofNat k
      icount := k * mockEpochIcounts
      chain := chainAfter blake3 seed l k }

@[simp] theorem length_epochsOf {seed : Bytes32} {l : List Moment} {n : Nat} :
    (epochsOf blake3 seed l n).length = n := by
  simp [epochsOf]

theorem getElem?_epochsOf {seed : Bytes32} {l : List Moment} {n i : Nat} (hi : i < n) :
    (epochsOf blake3 seed l n)[i]? = some
      { epochIndex := UInt64.ofNat (i + 1)
        icount := (i + 1) * mockEpochIcounts
        chain := chainAfter blake3 seed l (i + 1) } := by
  rw [epochsOf, List.getElem?_map, List.getElem?_range' hi, Option.map_some, Nat.one_mul,
    Nat.add_comm 1 i]

theorem replayable_recordList (hv : Recordable spec) :
    Replayable spec.endIcount.toNat (spec.recordList blake3) := by
  apply replayable_recordsOf spec.endIcount.toNat_lt
  · exact fun e he => icount_le_of_mem_order hv he
  · exact (pairwise_order spec).imp Scheduled.le.icount_le
  · intro e he hem
    obtain ⟨S, hS, hrank⟩ := exists_order_end hv
    rw [hS] at he
    rcases List.mem_append.mp he with he | he
    · exact absurd (by rw [hem]; rfl) (hrank e he)
    · rw [List.mem_singleton.mp he]
      rfl

/-- A clean replay of a recording folds the script's timeline. -/
theorem flatMap_folds_recordList (hv : Recordable spec) :
    (spec.recordList blake3).flatMap Record.folds = spec.timeline := by
  rw [SegmentSpec.recordList, flatMap_folds_recordsOf fun e he => lt_of_mem_order hv he,
    ofRank_two_order hv, flatMap_folds_eventEmissions]

/-- The epochs of a recording are its chain at every boundary. -/
theorem recordedEpochs_recordList {ε : Type} (hv : Recordable spec) :
    (recordedEpochs ((spec.recordList blake3).map framed) : Outcome ε _) =
      .ok (epochsOf blake3 (spec.seed blake3) spec.recording spec.epochCount) := by
  have hk : ∀ e ∈ spec.order, ∀ k, e.emission = .epochHash k → k < u64Bound := by
    intro e he k hk
    have hicount := icount_of_epochHash he hk
    have hlt := lt_of_mem_order hv he
    unfold mockEpochIcounts at hicount
    omega
  have hrank : spec.order.filterMap (Scheduled.epoch blake3 (spec.seed blake3) spec.recording) =
      (ofRank 0 spec.order).filterMap
        (Scheduled.epoch blake3 (spec.seed blake3) spec.recording) := by
    rw [ofRank, List.filterMap_filter]
    congr 1
    funext e
    cases hem : e.emission <;> simp [Scheduled.epoch, hem, Emission.rank]
  rw [SegmentSpec.recordList, recordedEpochs_recordsOf (fun e he => lt_of_mem_order hv he) hk,
    hrank, ofRank_zero_order, epochSchedule, List.filterMap_map, epochsOf]
  congr 1
  exact congrFun List.filterMap_eq_map _

/-- With a skew and without omission: all of them, of the skewed script. -/
theorem SkewedAs.recordedEpochs {ε : Type} {segment : DhilogSegment} {hash : Bytes32}
    (hw : SkewedAs blake3 spec at_ segment hash) :
    (ReplayRenderer.recordedEpochs ((spec.recordList blake3).map framed) : Outcome ε _) =
      .ok (epochsOf blake3 (spec.seed blake3) (spec.recorded at_)
        (spec.endIcount.toNat / mockEpochIcounts)) := by
  rw [recordedEpochs_recordList hw.valid, recording_of_skew hw.skewAt_eq, SegmentSpec.epochCount,
    hw.omit_eq, if_neg Bool.false_ne_true]

end Segment

end ReplayRenderer
