import ReplayRenderer.Lib.Blake3
import ReplayRenderer.MockHv.Written

/-!
The writer's segment read back. Every record is that of one emission, so the
records of a kind are those of a rank, in the order the sort gave that rank:
the scripted events, the frame marks by icount, an epoch hash at every
boundary, and END. The stream is one the structural validator accepts.
-/

namespace ReplayRenderer

open Lib Lib.Outcome

/-! ### The records of a schedule -/

section Records

variable {blake3 : Bytes → Bytes32} {seed : Bytes32} {l : List Moment}

inductive RecordOf (blake3 : Bytes → Bytes32) (seed : Bytes32) (l : List Moment) :
    Scheduled → Record → Prop
  | epochHash {t tie k : Nat} {seq : UInt32} {rip : UInt64} :
      RecordOf blake3 seed l ⟨t, tie, .epochHash k⟩
        ⟨kindEpochHash, rflagAux, seq, UInt64.ofNat t, rip,
          leBytes 8 k ++ (chainAfter blake3 seed l k).bytes⟩
  | canonical {t tie : Nat} {ev : CanonicalEvent} {seq : UInt32} {rip : UInt64} :
      RecordOf blake3 seed l ⟨t, tie, .canonical ev⟩
        ⟨ev.kind, 0, seq, UInt64.ofNat t, rip, ev.payloadBytes⟩
  | frameMark {t tie : Nat} {i : UInt32} {seq : UInt32} {rip : UInt64} :
      RecordOf blake3 seed l ⟨t, tie, .frameMark i⟩
        ⟨kindFrameMark, rflagAux, seq, UInt64.ofNat t, rip, le32 i ++ zeros 4⟩
  | end_ {t tie : Nat} {seq : UInt32} {rip : UInt64} :
      RecordOf blake3 seed l ⟨t, tie, .end_⟩
        ⟨kindEnd, rflagAux, seq, UInt64.ofNat t, rip,
          [1] ++ zeros 7 ++ ((guest blake3 seed l t).chainValue blake3).bytes⟩

theorem recordOf_record {e : Scheduled} {seq : Nat} {r : Record}
    (h : e.record blake3 seed l seq = some r) :
    RecordOf blake3 seed l e r ∧ r.seq = UInt32.ofNat seq := by
  obtain ⟨t, tie, emission⟩ := e
  cases emission with
  | epochHash k =>
      obtain rfl := Option.some.inj h
      exact ⟨.epochHash, rfl⟩
  | skew => cases h
  | canonical ev =>
      obtain rfl := Option.some.inj h
      exact ⟨.canonical, rfl⟩
  | frameMark i =>
      obtain rfl := Option.some.inj h
      exact ⟨.frameMark, rfl⟩
  | end_ =>
      obtain rfl := Option.some.inj h
      exact ⟨.end_, rfl⟩

theorem record_eq_none {e : Scheduled} {seq : Nat} :
    e.record blake3 seed l seq = none ↔ e.emission.rank = 1 := by
  obtain ⟨t, tie, emission⟩ := e
  cases emission <;> simp [Scheduled.record, Emission.rank]

namespace RecordOf

variable {e : Scheduled} {r : Record}

theorem icount_eq (h : RecordOf blake3 seed l e r) : r.icount = UInt64.ofNat e.icount := by
  cases h <;> rfl

theorem toNat_icount (h : RecordOf blake3 seed l e r) (hlt : e.icount < u64Bound) :
    r.icount.toNat = e.icount := by
  rw [h.icount_eq]
  exact UInt64.toNat_ofNat_of_lt' hlt

theorem rflags_eq (h : RecordOf blake3 seed l e r) : r.rflags = 0 ∨ r.rflags = rflagAux := by
  cases h
  case canonical => exact .inl rfl
  all_goals exact .inr rfl

theorem isAux_eq_false (h : RecordOf blake3 seed l e r) :
    r.isAux = false ↔ e.emission.rank = 2 := by
  cases h <;> simp [Record.isAux, rflagAux, Emission.rank]

theorem isAux_and_kind (h : RecordOf blake3 seed l e r) :
    (r.isAux = true ∧ r.kind = kindEpochHash ↔ e.emission.rank = 0) ∧
      (r.isAux = true ∧ r.kind = kindFrameMark ↔ e.emission.rank = 3) ∧
      (r.isAux = true ∧ r.kind = kindEnd ↔ e.emission.rank = 4) := by
  cases h <;> simp [Record.isAux, rflagAux, Emission.rank, kindEpochHash, kindFrameMark, kindEnd]

theorem kind_of_canonical (h : RecordOf blake3 seed l e r) (haux : r.isAux = false) :
    r.kind = kindPadSet ∨ r.kind = kindDevEvent ∨ r.kind = kindNetRx := by
  have hrank := h.isAux_eq_false.mp haux
  cases h
  case canonical t tie ev seq rip => cases ev <;> simp [CanonicalEvent.kind]
  all_goals cases hrank

theorem length_of_epochHash (h : RecordOf blake3 seed l e r) (haux : r.isAux = true)
    (hkind : r.kind = kindEpochHash) : r.payload.length = 40 := by
  have hrank := h.isAux_and_kind.1.mp ⟨haux, hkind⟩
  cases h
  case epochHash => simp
  all_goals cases hrank

theorem emission_of_end (h : RecordOf blake3 seed l e r) (haux : r.isAux = true)
    (hkind : r.kind = kindEnd) : e.emission = .end_ := by
  have hrank := h.isAux_and_kind.2.2.mp ⟨haux, hkind⟩
  cases h
  case end_ => rfl
  all_goals cases hrank

theorem isEnd_iff (h : RecordOf blake3 seed l e r) : r.IsEnd ↔ e.emission.rank = 4 := by
  rw [← h.isAux_and_kind.2.2, Record.IsEnd, and_comm, Record.isAux_iff h.rflags_eq]

theorem payload_of_epochHash (h : RecordOf blake3 seed l e r) {k : Nat}
    (hem : e.emission = .epochHash k) :
    r.payload = leBytes 8 k ++ (chainAfter blake3 seed l k).bytes := by
  cases h <;> cases hem
  rfl

theorem of_canonical (h : RecordOf blake3 seed l e r) {ev : CanonicalEvent}
    (hem : e.emission = .canonical ev) : r.kind = ev.kind ∧ r.payload = ev.payloadBytes := by
  cases h <;> cases hem
  exact ⟨rfl, rfl⟩

theorem payload_of_frameMark (h : RecordOf blake3 seed l e r) {i : UInt32}
    (hem : e.emission = .frameMark i) : r.payload = le32 i ++ zeros 4 := by
  cases h <;> cases hem
  rfl

theorem payload_of_end (h : RecordOf blake3 seed l e r) (hem : e.emission = .end_) :
    r.payload = [1] ++ zeros 7 ++ ((guest blake3 seed l e.icount).chainValue blake3).bytes := by
  cases h <;> cases hem
  rfl

end RecordOf

/-- One record for every emission but the skew, in order. -/
theorem forall₂_recordsOf {S : List Scheduled} {seq : Nat} :
    List.Forall₂ (RecordOf blake3 seed l) (S.filter fun e => e.emission.rank ≠ 1)
      (recordsOf blake3 seed l seq S) := by
  induction S generalizing seq with
  | nil => exact .nil
  | cons e S ih =>
      rw [recordsOf]
      cases hrec : e.record blake3 seed l seq with
      | none =>
          rw [List.filter_cons_of_neg (by simpa using record_eq_none.mp hrec)]
          exact ih
      | some r =>
          have hrank : e.emission.rank ≠ 1 := by
            intro hone
            rw [record_eq_none.mpr hone] at hrec
            cases hrec
          rw [List.filter_cons_of_pos (by simpa using hrank)]
          exact .cons (recordOf_record hrec).1 ih

theorem recordsOf_append {S S' : List Scheduled} {seq : Nat} :
    recordsOf blake3 seed l seq (S ++ S') = recordsOf blake3 seed l seq S ++
      recordsOf blake3 seed l (seq + (recordsOf blake3 seed l seq S).length) S' := by
  induction S generalizing seq with
  | nil => rfl
  | cons e S ih =>
      rw [List.cons_append, recordsOf, recordsOf, ih, List.append_assoc, List.length_append,
        Nat.add_assoc]

theorem seq_of_recordsOf {S : List Scheduled} {seq i : Nat} {r : Record}
    (h : (recordsOf blake3 seed l seq S)[i]? = some r) : r.seq = UInt32.ofNat (seq + i) := by
  induction S generalizing seq i with
  | nil => cases h
  | cons e S ih =>
      rw [recordsOf] at h
      cases hrec : e.record blake3 seed l seq with
      | none =>
          rw [hrec] at h
          exact ih h
      | some q =>
          rw [hrec] at h
          cases i with
          | zero =>
              obtain rfl : q = r := Option.some.inj h
              exact (recordOf_record hrec).2
          | succ i =>
              have hnext := @ih (seq + 1) i h
              rw [hnext, Nat.add_right_comm, Nat.add_assoc]

theorem exists_of_mem_recordsOf {S : List Scheduled} {seq : Nat} {r : Record}
    (h : r ∈ recordsOf blake3 seed l seq S) : ∃ e ∈ S, RecordOf blake3 seed l e r := by
  induction S generalizing seq with
  | nil => cases h
  | cons e S ih =>
      rcases List.mem_append.mp h with h | h
      · exact ⟨e, List.mem_cons_self .., (recordOf_record (Option.mem_toList.mp h)).1⟩
      · obtain ⟨e', he', hr⟩ := ih h
        exact ⟨e', List.mem_cons_of_mem e he', hr⟩

theorem pairwise_recordsOf {S : List Scheduled} {seq : Nat}
    (hlt : ∀ e ∈ S, e.icount < u64Bound) (hsorted : S.Pairwise fun e e' => e.icount ≤ e'.icount) :
    (recordsOf blake3 seed l seq S).Pairwise fun r r' => r.icount.toNat ≤ r'.icount.toNat := by
  induction S generalizing seq with
  | nil => exact List.Pairwise.nil
  | cons e S ih =>
      obtain ⟨hhead, htail⟩ := List.pairwise_cons.mp hsorted
      have hltS : ∀ e' ∈ S, e'.icount < u64Bound := fun e' he' =>
        hlt e' (List.mem_cons_of_mem e he')
      rw [recordsOf, List.pairwise_append]
      refine ⟨?_, ih hltS htail, ?_⟩
      · cases e.record blake3 seed l seq with
        | none => exact List.Pairwise.nil
        | some r => exact List.pairwise_singleton ..
      · intro r hr r' hr'
        obtain ⟨hrec, -⟩ := recordOf_record (Option.mem_toList.mp hr)
        obtain ⟨e', he', hrec'⟩ := exists_of_mem_recordsOf hr'
        rw [hrec.toNat_icount (hlt e (List.mem_cons_self ..)), hrec'.toNat_icount (hltS e' he')]
        exact hhead e' he'

/-- The records of a kind are those of a rank. -/
theorem forall₂_filter_recordsOf {S : List Scheduled} {seq rank : Nat} {q : Record → Bool}
    (hrank : rank ≠ 1)
    (hq : ∀ e r, RecordOf blake3 seed l e r → (q r = true ↔ e.emission.rank = rank)) :
    List.Forall₂ (RecordOf blake3 seed l) (ofRank rank S)
      ((recordsOf blake3 seed l seq S).filter q) := by
  have hfilter : (S.filter fun e => e.emission.rank ≠ 1).filter (fun e => e.emission.rank = rank) =
      ofRank rank S := by
    rw [List.filter_filter, ofRank]
    apply List.filter_congr
    intro e _
    rw [← Bool.decide_and]
    exact decide_eq_decide.mpr ⟨fun h => h.1, fun h => ⟨h, h ▸ hrank⟩⟩
  rw [← hfilter]
  refine List.rel_filter ?_ forall₂_recordsOf
  intro e r hrec
  exact decide_eq_true_iff.trans (hq e r hrec).symm

end Records

/-! ### The payloads, decoded -/

/-- A payload that decodes to the fields of an event. The service has a decoder
for pads only; the other fields are read where the format has them. -/
def CanonicalEvent.ReadFrom (payload : Bytes) : CanonicalEvent → Prop
  | .padSet port buttons frameHint => decodePadSet payload = .ok ⟨port, buttons, frameHint⟩
  | .devEvent deviceId eventType data =>
    (u16At payload 0 : Outcome DhilogError _) = .ok deviceId ∧
      (u16At payload 2 : Outcome DhilogError _) = .ok eventType ∧
      (∃ len, (u32At payload 4 : Outcome DhilogError _) = .ok len ∧ len.toNat = data.length) ∧
      payload.drop 8 = data
  | .netRx frame => payload = frame

theorem decodeFrameMark_eq_ok {payload : Bytes} {m : FrameMarkRec} :
    decodeFrameMark payload = .ok m ↔
      payload.length = 8 ∧ SitsAt payload 0 (le32 m.frameIndex) := by
  obtain ⟨frameIndex⟩ := m
  simp [decodeFrameMark, bind_eq_ok, rejectIf_eq_ok]

theorem decodeEnd_eq_ok {payload : Bytes} {m : EndRec} :
    decodeEnd payload = .ok m ↔ payload.length = 40 ∧ SitsAt payload 0 [m.stopReason] ∧
      SitsAt payload 8 m.endStateHash.bytes := by
  obtain ⟨stopReason, endStateHash⟩ := m
  simp [decodeEnd, bind_eq_ok, rejectIf_eq_ok, getElem?_eq_some_iff_sitsAt]

theorem readFrom_payloadBytes {ev : CanonicalEvent} (h : ev.Fits) :
    ev.ReadFrom ev.payloadBytes := by
  have hself := sitsAt_self ev.payloadBytes
  cases ev with
  | padSet port buttons frameHint =>
      simp only [CanonicalEvent.payloadBytes, sitsAt_append, List.length_append,
        List.length_singleton, length_zeros, length_le32] at hself
      obtain ⟨⟨⟨hport, -⟩, hbuttons⟩, hframeHint⟩ := hself
      have hlen : (CanonicalEvent.padSet port buttons frameHint).payloadBytes.length = 12 := by
        simp [CanonicalEvent.payloadBytes]
      exact decodePadSet_eq_ok.mpr ⟨hlen, hport, hbuttons, hframeHint⟩
  | devEvent deviceId eventType data =>
      have hdata : data.length ≤ 4088 := h
      have hlen : (UInt32.ofNat data.length).toNat = data.length :=
        UInt32.toNat_ofNat_of_lt' (lt_of_le_of_lt hdata (by decide))
      simp only [CanonicalEvent.payloadBytes, sitsAt_append, List.length_append, length_le16,
        length_le32] at hself
      obtain ⟨⟨⟨hdevice, htype⟩, hcount⟩, -⟩ := hself
      refine ⟨u16At_eq_ok.mpr hdevice, u16At_eq_ok.mpr htype, ⟨_, u32At_eq_ok.mpr hcount, hlen⟩, ?_⟩
      exact List.drop_left' (by simp)
  | netRx frame => rfl

theorem decodeFrameMark_payload (i : UInt32) :
    decodeFrameMark (le32 i ++ zeros 4) = .ok ⟨i⟩ := by
  have hself := sitsAt_self (le32 i ++ zeros 4)
  rw [sitsAt_append] at hself
  exact decodeFrameMark_eq_ok.mpr ⟨by simp, hself.1⟩

theorem decodeEnd_payload (hash : Bytes32) :
    decodeEnd ([1] ++ zeros 7 ++ hash.bytes) = .ok ⟨1, hash⟩ := by
  have hself := sitsAt_self ([1] ++ zeros 7 ++ hash.bytes)
  rw [sitsAt_append, sitsAt_append] at hself
  obtain ⟨⟨hreason, -⟩, hhash⟩ := hself
  exact decodeEnd_eq_ok.mpr ⟨by simp, hreason, hhash⟩

/-! ### The stream of a spec -/

section Stream

variable {blake3 : Bytes → Bytes32} {spec : SegmentSpec} {segment : DhilogSegment}
  {hash : Bytes32}

theorem lt_of_mem_order (hv : Recordable spec) {e : Scheduled} (he : e ∈ spec.order) :
    e.icount < u64Bound :=
  lt_of_le_of_lt (icount_le_of_mem_order hv he) spec.endIcount.toNat_lt

def SegmentSpec.recordCount (spec : SegmentSpec) : Nat :=
  spec.epochCount + spec.events.length + spec.frameMarks.length + 1

theorem length_recordList (blake3 : Bytes → Bytes32) (spec : SegmentSpec) :
    (spec.recordList blake3).length = spec.recordCount := by
  have hrecords : List.Forall₂ (RecordOf blake3 (spec.seed blake3) spec.recording)
      (spec.order.filter fun e => !decide (e.emission.rank = 1)) (spec.recordList blake3) := by
    have h := @forall₂_recordsOf blake3 (spec.seed blake3) spec.recording spec.order 0
    simp only [ne_eq, decide_not] at h
    exact h
  have hperm : spec.order.length = spec.merged.length :=
    (List.perm_insertionSort Scheduled.le spec.merged).length_eq
  have hsplit := List.length_eq_length_filter_add (l := spec.order)
    fun e => decide (e.emission.rank = 1)
  have hone : (spec.order.filter fun e => decide (e.emission.rank = 1)) = spec.skewSchedule :=
    ofRank_one_order spec
  rw [hone, hrecords.length_eq, hperm, SegmentSpec.merged, epochSchedule,
    SegmentSpec.eventEmissions, SegmentSpec.frameEmissions] at hsplit
  simp only [List.length_append, List.length_map, List.length_range', List.length_zipIdx,
    List.length_singleton] at hsplit
  unfold SegmentSpec.recordCount
  omega

def canonicalOf (rs : List Record) : List Record := rs.filter fun r => r.isAux = false

def auxOf (kind : UInt8) (rs : List Record) : List Record :=
  rs.filter fun r => r.isAux = true ∧ r.kind = kind

def ScriptEvent.ReadFrom (ev : ScriptEvent) (r : Record) : Prop :=
  r.icount = ev.icount ∧ r.kind = ev.event.kind ∧ ev.event.ReadFrom r.payload

def FrameMark.ReadFrom (fm : FrameMark) (r : Record) : Prop :=
  r.icount = fm.icount ∧ decodeFrameMark r.payload = .ok ⟨fm.frameIndex⟩

def EpochReadFrom (k : Nat) (r : Record) : Prop :=
  r.icount.toNat = k * mockEpochIcounts ∧
    (u64At r.payload 0 : Outcome DhilogError _) = .ok (UInt64.ofNat k)

/-- A stream that says what a spec says, and nothing else. -/
structure ReadsBack (spec : SegmentSpec) (hash : Bytes32) (rs : List Record) : Prop where
  seq : ∀ (i : Nat) (r : Record), rs[i]? = some r → r.seq.toNat = i
  monotone : rs.Pairwise fun r r' => r.icount ≤ r'.icount
  events : List.Forall₂ ScriptEvent.ReadFrom spec.events (canonicalOf rs)
  frames : List.Forall₂ FrameMark.ReadFrom spec.sortedMarks (auxOf kindFrameMark rs)
  epochs : List.Forall₂ EpochReadFrom (List.range' 1 spec.epochCount) (auxOf kindEpochHash rs)
  last : ∃ init r, rs = init ++ [r] ∧ r.IsEnd ∧ r.icount = spec.endIcount ∧
    decodeEnd r.payload = .ok ⟨1, hash⟩
  length : rs.length = spec.recordCount

theorem forall₂_readFrom {β γ : Type} {seed : Bytes32} {l : List Moment} {f : β → Scheduled}
    {g : β → γ} {R : γ → Record → Prop} {xs : List β} {rs : List Record}
    (h : List.Forall₂ (RecordOf blake3 seed l) (xs.map f) rs)
    (hR : ∀ x ∈ xs, ∀ r, RecordOf blake3 seed l (f x) r → R (g x) r) :
    List.Forall₂ R (xs.map g) rs := by
  rw [List.forall₂_map_left_iff] at h ⊢
  have hmem := List.forall₂_and_left (p := fun x => x ∈ xs) xs rs |>.mpr ⟨fun x hx => hx, h⟩
  exact hmem.imp fun x r hx => hR x hx.1 r hx.2

theorem forall₂_canonicalOf (hv : Recordable spec) (hfits : ∀ ev ∈ spec.events, ev.event.Fits) :
    List.Forall₂ ScriptEvent.ReadFrom spec.events (canonicalOf (spec.recordList blake3)) := by
  have hrecords : List.Forall₂ (RecordOf blake3 (spec.seed blake3) spec.recording)
      (ofRank 2 spec.order) (canonicalOf (spec.recordList blake3)) :=
    forall₂_filter_recordsOf (by decide) fun e r h => by
      rw [decide_eq_true_eq, h.isAux_eq_false]
  rw [ofRank_two_order hv, SegmentSpec.eventEmissions] at hrecords
  rw [← List.zipIdx_map_fst 0 spec.events]
  refine forall₂_readFrom hrecords ?_
  rintro ⟨ev, i⟩ hmem r h
  obtain ⟨hkind, hpayload⟩ := h.of_canonical rfl
  refine ⟨h.icount_eq.trans UInt64.ofNat_toNat, hkind, ?_⟩
  rw [hpayload]
  exact readFrom_payloadBytes (hfits ev (List.fst_mem_of_mem_zipIdx hmem))

theorem forall₂_auxOf_frameMark :
    List.Forall₂ FrameMark.ReadFrom spec.sortedMarks
      (auxOf kindFrameMark (spec.recordList blake3)) := by
  have hrecords : List.Forall₂ (RecordOf blake3 (spec.seed blake3) spec.recording)
      (ofRank 3 spec.order) (auxOf kindFrameMark (spec.recordList blake3)) :=
    forall₂_filter_recordsOf (by decide) fun e r h => by
      rw [decide_eq_true_eq, h.isAux_and_kind.2.1]
  obtain ⟨marks, hmarks, horder⟩ := exists_ofRank_three_order spec
  rw [horder] at hrecords
  rw [← hmarks]
  refine forall₂_readFrom hrecords ?_
  rintro ⟨fm, i⟩ - r h
  refine ⟨h.icount_eq.trans UInt64.ofNat_toNat, ?_⟩
  rw [h.payload_of_frameMark rfl]
  exact decodeFrameMark_payload fm.frameIndex

theorem forall₂_auxOf_epochHash (hv : Recordable spec) :
    List.Forall₂ EpochReadFrom (List.range' 1 spec.epochCount)
      (auxOf kindEpochHash (spec.recordList blake3)) := by
  have hrecords : List.Forall₂ (RecordOf blake3 (spec.seed blake3) spec.recording)
      (ofRank 0 spec.order) (auxOf kindEpochHash (spec.recordList blake3)) :=
    forall₂_filter_recordsOf (by decide) fun e r h => by
      rw [decide_eq_true_eq, h.isAux_and_kind.1]
  have hlt : ∀ e ∈ epochSchedule spec.epochCount, e.icount < u64Bound := fun e he =>
    lt_of_mem_order hv (mem_order.mpr (.inl he))
  rw [ofRank_zero_order] at hrecords
  rw [epochSchedule] at hrecords hlt
  rw [← List.map_id (List.range' 1 spec.epochCount)]
  refine forall₂_readFrom hrecords ?_
  intro k hk r h
  have hicount := h.toNat_icount (hlt _ (List.mem_map_of_mem hk))
  have hk : k < u64Bound := by
    have hle : k ≤ k * mockEpochIcounts := Nat.le_mul_of_pos_right k (by decide)
    exact lt_of_le_of_lt hle (hlt _ (List.mem_map_of_mem hk))
  have hself := sitsAt_self (leBytes 8 k ++ (chainAfter blake3 (spec.seed blake3)
    spec.recording k).bytes)
  rw [sitsAt_append] at hself
  refine ⟨hicount, ?_⟩
  rw [h.payload_of_epochHash rfl, u64At_eq_ok, id_eq, le64_ofNat hk]
  exact hself.1

theorem exists_recordList_end (hv : Recordable spec) :
    ∃ init last, spec.recordList blake3 = init ++ [last] ∧
      RecordOf blake3 (spec.seed blake3) spec.recording spec.endEmission last ∧
      ∀ r ∈ init, ¬r.IsEnd := by
  obtain ⟨S, hS, hrank⟩ := exists_order_end hv
  obtain ⟨last, hlast⟩ : ∃ last, spec.endEmission.record blake3 (spec.seed blake3) spec.recording
      (0 + (recordsOf blake3 (spec.seed blake3) spec.recording 0 S).length) = some last :=
    ⟨_, rfl⟩
  refine ⟨recordsOf blake3 (spec.seed blake3) spec.recording 0 S, last, ?_,
    (recordOf_record hlast).1, ?_⟩
  · rw [SegmentSpec.recordList, hS, recordsOf_append, recordsOf, hlast]
    rfl
  · intro r hr hend
    obtain ⟨e, he, hrec⟩ := exists_of_mem_recordsOf hr
    exact hrank e he (hrec.isEnd_iff.mp hend)

theorem seq_of_recordList (hcount : (spec.recordList blake3).length < 2 ^ 32) {i : Nat}
    {r : Record} (h : (spec.recordList blake3)[i]? = some r) : r.seq.toNat = i := by
  obtain ⟨hi, -⟩ := List.getElem?_eq_some_iff.mp h
  rw [seq_of_recordsOf h, Nat.zero_add]
  exact UInt32.toNat_ofNat_of_lt' (hi.trans hcount)

theorem monotone_recordList (hv : Recordable spec) :
    (spec.recordList blake3).Pairwise fun r r' => r.icount ≤ r'.icount :=
  (pairwise_recordsOf (fun _ he => lt_of_mem_order hv he)
    ((pairwise_order spec).imp Scheduled.le.icount_le)).imp UInt64.le_iff_toNat_le.mpr

theorem WrittenAs.payload_of_end (hw : WrittenAs blake3 spec segment hash) {r : Record}
    (h : RecordOf blake3 (spec.seed blake3) spec.recording spec.endEmission r) :
    r.payload = [1] ++ zeros 7 ++ hash.bytes := by
  rw [h.payload_of_end rfl, hw.hash_eq, guestAt_end hw.valid]
  rfl

theorem WrittenAs.recordAllowed (hw : WrittenAs blake3 spec segment hash)
    (hfits : ∀ ev ∈ spec.events, ev.event.Fits) {r : Record} (hr : r ∈ spec.recordList blake3) :
    RecordAllowed segment.header r := by
  obtain ⟨e, he, hrec⟩ := exists_of_mem_recordsOf hr
  refine ⟨hrec.rflags_eq, hw.payload_le r hr, ?_, ?_⟩
  · intro haux
    have hcanon : r.isAux = false :=
      Bool.eq_false_iff.mpr fun h => haux ((Record.isAux_iff hrec.rflags_eq).mp h)
    have hmem : e ∈ ofRank 2 spec.order :=
      List.mem_filter.mpr ⟨he, decide_eq_true (hrec.isAux_eq_false.mp hcanon)⟩
    rw [ofRank_two_order hw.valid] at hmem
    obtain ⟨ev, hev, -, hem⟩ := mem_eventEmissions hmem
    obtain ⟨hkind, hpayload⟩ := hrec.of_canonical hem
    have hfit := hfits ev hev
    rw [hkind, hpayload]
    cases hevent : ev.event with
    | padSet port buttons frameHint => exact .inl rfl
    | devEvent deviceId eventType data => exact .inr (.inl rfl)
    | netRx frame =>
        rw [hevent] at hfit
        exact .inr (.inr ⟨rfl, hfit⟩)
  · rw [hw.endIcount, UInt64.le_iff_toNat_le, hrec.toNat_icount (lt_of_mem_order hw.valid he)]
    exact icount_le_of_mem_order hw.valid he

theorem WrittenAs.endAllowed (hw : WrittenAs blake3 spec segment hash) {r : Record}
    (h : RecordOf blake3 (spec.seed blake3) spec.recording spec.endEmission r) :
    EndAllowed segment.header r where
  icount := by
    rw [hw.endIcount, h.icount_eq]
    exact UInt64.ofNat_toNat
  payload_length := by
    rw [hw.payload_of_end h]
    simp
  carries_hash := by
    have hself := sitsAt_self ([1] ++ zeros 7 ++ hash.bytes)
    rw [sitsAt_append] at hself
    rw [hw.payload_of_end h, hw.endStateHash]
    exact hself.2

theorem flags_sealed (spec : SegmentSpec) : spec.flags &&& flagSealed ≠ 0 := by
  unfold SegmentSpec.flags
  split <;> decide

/-- The validator accepts what the writer wrote. -/
theorem WrittenAs.sealedSegment (hw : WrittenAs blake3 spec segment hash)
    (hfits : ∀ ev ∈ spec.events, ev.event.Fits) (hne : hash ≠ Bytes32.zero) :
    SealedSegment blake3 segment (spec.recordList blake3) := by
  obtain ⟨endVns, hheader⟩ := hw.header
  obtain ⟨init, last, hlist, hlast, hinit⟩ := exists_recordList_end hw.valid
  have hcount : segment.header.recordCount.toNat = (spec.recordList blake3).length := by
    have hlt : (spec.recordList blake3).length < u64Bound :=
      hw.count_lt.trans (Nat.pow_lt_pow_right (by decide) (by decide))
    rw [hheader]
    exact UInt64.toNat_ofNat_of_lt' hlt
  refine ⟨?_, ?_, ?_, hw.body, ?_⟩
  · rw [hheader]
    exact flags_sealed spec
  · rw [hw.endStateHash]
    exact hne
  · exact (congrArg DhilogHeader.bodyHash hheader).symm
  · refine ⟨hcount.symm, fun i r h => seq_of_recordList hw.count_lt h, monotone_recordList hw.valid,
      fun r hr => hw.recordAllowed hfits hr, init, last, hlist, ?_, hw.endAllowed hlast, hinit⟩
    exact hlast.isEnd_iff.mpr rfl

theorem WrittenAs.readsBack (hw : WrittenAs blake3 spec segment hash)
    (hfits : ∀ ev ∈ spec.events, ev.event.Fits) :
    ReadsBack spec hash (spec.recordList blake3) where
  seq i r h := seq_of_recordList hw.count_lt h
  monotone := monotone_recordList hw.valid
  events := forall₂_canonicalOf hw.valid hfits
  frames := forall₂_auxOf_frameMark
  epochs := forall₂_auxOf_epochHash hw.valid
  last := by
    obtain ⟨init, last, hlist, hlast, -⟩ := exists_recordList_end hw.valid
    refine ⟨init, last, hlist, hlast.isEnd_iff.mpr rfl, ?_, ?_⟩
    · exact hlast.icount_eq.trans UInt64.ofNat_toNat
    · rw [hw.payload_of_end hlast]
      exact decodeEnd_payload hash
  length := length_recordList blake3 spec

end Stream

/-! ### Writing and reading -/

structure Writable (spec : SegmentSpec) : Prop where
  sorted : spec.events.IsChain fun a b => a.icount ≤ b.icount
  events_le : ∀ ev ∈ spec.events, ev.icount ≤ spec.endIcount
  frames_le : ∀ fm ∈ spec.frameMarks, fm.icount ≤ spec.endIcount
  skew_le : ∀ at_ ∈ spec.skewAt, at_ ≤ spec.endIcount
  fits : ∀ ev ∈ spec.events, ev.event.Fits
  clockDen_ne : spec.clockDen ≠ 0
  endVns_lt : spec.endIcount.toNat * spec.clockNum.toNat < 2 ^ 64

structure CarriesSpec (spec : SegmentSpec) (hash : Bytes32) (h : DhilogHeader) : Prop where
  base : h.baseSnapshotId = spec.baseSnapshotId
  end_ : h.endSnapshotId = spec.endSnapshotId
  seed : h.entropySeed = spec.entropySeed
  config : h.machineConfigHash = spec.machineConfigHash
  clockNum : h.clockNum = spec.clockNum
  clockDen : h.clockDen = spec.clockDen
  endIcount : h.endIcount = spec.endIcount
  endStateHash : h.endStateHash = hash

theorem WrittenAs.carriesSpec {blake3 : Bytes → Bytes32} {spec : SegmentSpec}
    {segment : DhilogSegment} {hash : Bytes32} (hw : WrittenAs blake3 spec segment hash) :
    CarriesSpec spec hash segment.header := by
  obtain ⟨endVns, hheader⟩ := hw.header
  rw [hheader]
  exact ⟨rfl, rfl, rfl, rfl, rfl, rfl, rfl, rfl⟩

/-- The boundary after the end is no overflow when an epoch more is none. -/
theorem bounded_of_lt {spec : SegmentSpec}
    (h : spec.endIcount.toNat + mockEpochIcounts < 2 ^ 64) : spec.Bounded := by
  have hle := Nat.div_mul_le_self spec.endIcount.toNat mockEpochIcounts
  rw [SegmentSpec.Bounded, Nat.succ_mul]
  exact lt_of_le_of_lt (Nat.add_le_add_right hle _) h

theorem Writable.recordable {spec : SegmentSpec} (hw : Writable spec) (hbound : spec.Bounded) :
    Recordable spec where
  sorted := pairwise_icount hw.sorted
  events_le := hw.events_le
  frames_le := hw.frames_le
  skew_le := hw.skew_le
  bound := hbound

theorem exists_writeSegment (blake3 : Bytes → Bytes32) (ε : Type) {spec : SegmentSpec}
    (hw : Writable spec) (hbound : spec.Bounded) (hcount : spec.recordCount < 2 ^ 32) :
    ∃ bytes hash, (writeSegment blake3 spec : Outcome ε _) = .ok (bytes, hash) := by
  have hv := hw.recordable hbound
  have hfits : ∀ e ∈ spec.order, ∀ ev, e.emission = .canonical ev → ev.Fits := by
    intro e he ev hem
    have hmem : e ∈ ofRank 2 spec.order := by
      refine List.mem_filter.mpr ⟨he, ?_⟩
      rw [hem]
      rfl
    rw [ofRank_two_order hv] at hmem
    obtain ⟨sev, hsev, -, hem'⟩ := mem_eventEmissions hmem
    obtain rfl : ev = sev.event := Emission.canonical.inj (hem.symm.trans hem')
    exact hw.fits sev hsev
  have hlen : 0 + (recordsOf blake3 (spec.seed blake3) spec.recording 0 spec.order).length <
      2 ^ 32 := by
    rw [Nat.zero_add]
    exact (length_recordList blake3 spec).trans_lt hcount
  obtain ⟨w, hemit⟩ := exists_emitAll (ε := ε) hv.bound (emitting_order hv) hfits hlen
  exact ⟨_, _, writeSegment_eq_ok.mpr ⟨hw.sorted, hw.events_le, hw.frames_le, hw.skew_le,
    fun _ => hbound, hw.clockDen_ne, hw.endVns_lt, w, hemit, rfl, rfl⟩⟩

theorem mem_order_of_mem_events {spec : SegmentSpec} {ev : ScriptEvent} (h : ev ∈ spec.events) :
    ∃ e ∈ spec.order, e.emission = .canonical ev.event := by
  rw [← List.zipIdx_map_fst 0 spec.events] at h
  obtain ⟨p, hp, rfl⟩ := List.mem_map.mp h
  exact ⟨_, mem_order.mpr (.inr (.inr (.inl (List.mem_map_of_mem hp)))), rfl⟩

/-- What the writer accepts it can write, and only that. -/
theorem exists_writeSegment_iff {blake3 : Bytes → Bytes32} {ε : Type} {spec : SegmentSpec} :
    (∃ written, (writeSegment blake3 spec : Outcome ε _) = .ok written) ↔
      Writable spec ∧ spec.Bounded ∧ spec.recordCount < 2 ^ 32 := by
  constructor
  · rintro ⟨⟨bytes, hash⟩, h⟩
    obtain ⟨segment, -, hwritten⟩ := writtenAs_of_writeSegment h
    obtain ⟨hchain, hevents, hframes, hskew, -, hden, hlt, w, hemit, -, -⟩ :=
      writeSegment_eq_ok.mp h
    refine ⟨⟨hchain, hevents, hframes, hskew, ?_, hden, hlt⟩, hwritten.valid.bound, ?_⟩
    · intro ev hev
      obtain ⟨e, he, hem⟩ := mem_order_of_mem_events hev
      exact fits_of_emitAll hemit he hem
    · rw [← length_recordList blake3]
      exact hwritten.count_lt
  · rintro ⟨hw, hbound, hcount⟩
    obtain ⟨bytes, hash, h⟩ := exists_writeSegment blake3 ε hw hbound hcount
    exact ⟨_, h⟩

/-- A script that the writer's assertions admit, and whose icounts and records
can be counted, is written; and what is written parses, carries the spec, passes
the validator unless the end hash happens to be zero, and reads back as the
script. -/
theorem writeSegment_reads_back (blake3 : Bytes → Bytes32) {ε : Type} {spec : SegmentSpec}
    (hw : Writable spec) (hend : spec.endIcount.toNat + mockEpochIcounts < 2 ^ 64)
    (hcount : spec.recordCount < 2 ^ 32) :
    ∃ bytes hash segment rs, (writeSegment blake3 spec : Outcome ε _) = .ok (bytes, hash) ∧
      DhilogSegment.parse bytes = .ok segment ∧ CarriesSpec spec hash segment.header ∧
      (hash ≠ Bytes32.zero → validateStructure blake3 segment = .ok ()) ∧
      (segment.records : Outcome DhilogError _) = .ok (rs.map framed) ∧
      ReadsBack spec hash rs := by
  obtain ⟨bytes, hash, hwrite⟩ := exists_writeSegment blake3 ε hw (bounded_of_lt hend) hcount
  obtain ⟨segment, hparse, hsegment⟩ := writtenAs_of_writeSegment hwrite
  refine ⟨bytes, hash, segment, spec.recordList blake3, hwrite, hparse, hsegment.carriesSpec, ?_,
    hsegment.records, hsegment.readsBack hw.fits⟩
  intro hne
  exact (validateStructure_eq_ok blake3 segment).mpr ⟨_, hsegment.sealedSegment hw.fits hne⟩

def crowdedScript : SegmentSpec :=
  { baseSnapshotId := Bytes32.fill 1
    endSnapshotId := Bytes32.fill 2
    entropySeed := Bytes32.fill 3
    machineConfigHash := Bytes32.fill 4
    clockNum := 1
    clockDen := 1
    endIcount := 4099
    events := [
      { icount := 4096, event := .padSet 0 1 7 },
      { icount := 4096, event := .devEvent 5 6 [1, 2, 3] },
      { icount := 4098, event := .netRx [9] }]
    frameMarks := [
      { frameIndex := 8, icount := 4098 },
      { frameIndex := 7, icount := 4096 },
      { frameIndex := 6, icount := 4096 }]
    skewAt := some 4096
    omitEpochHashes := false }

theorem writable_crowdedScript : Writable crowdedScript where
  sorted := by decide
  events_le := by decide
  frames_le := by decide
  skew_le := by
    rintro _ ⟨⟩
    decide
  fits := by decide
  clockDen_ne := by decide
  endVns_lt := by decide

theorem endHash_crowdedScript :
    isOkAnd (fun written => written.2 ≠ Bytes32.zero)
      (writeSegment Blake3.hash crowdedScript : Outcome Empty _) = true := by
  decide +kernel

theorem writeSegment_reads_back_crowdedScript :
    ∃ bytes hash segment rs,
      (writeSegment Blake3.hash crowdedScript : Outcome Empty _) = .ok (bytes, hash) ∧
      DhilogSegment.parse bytes = .ok segment ∧
      CarriesSpec crowdedScript hash segment.header ∧
      validateStructure Blake3.hash segment = .ok () ∧
      (segment.records : Outcome DhilogError _) = .ok (rs.map framed) ∧
      ReadsBack crowdedScript hash rs := by
  obtain ⟨bytes, hash, segment, rs, hwrite, hparse, hcarries, hvalid, hrecords, hreads⟩ :=
    writeSegment_reads_back Blake3.hash (ε := Empty) writable_crowdedScript (by decide) (by decide)
  obtain ⟨written, hwritten, hne⟩ := isOkAnd_iff.mp endHash_crowdedScript
  obtain rfl : (bytes, hash) = written := Outcome.ok.inj (hwrite.symm.trans hwritten)
  exact ⟨bytes, hash, segment, rs, hwrite, hparse, hcarries, hvalid (of_decide_eq_true hne),
    hrecords, hreads⟩

end ReplayRenderer
