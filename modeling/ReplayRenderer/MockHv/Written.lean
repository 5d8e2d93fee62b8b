import ReplayRenderer.MockHv.Schedule
import ReplayRenderer.Splice.Grammar

/-!
What the writer writes: a header and the encodings of one record for every
emission but the skew. The chain values in the records are those of the
whole timeline, although the guest had only run its beginning when they were
written: a chain value does not depend on what is folded later.
-/

namespace ReplayRenderer

open Lib Lib.Outcome

section Records

variable (blake3 : Bytes → Bytes32) (seed : Bytes32) (l : List Moment)

def Scheduled.record (seq : Nat) (e : Scheduled) : Option Record :=
  let make (kind rflags : UInt8) (payload : Bytes) : Record :=
    { kind
      rflags
      seq := UInt32.ofNat seq
      icount := UInt64.ofNat e.icount
      boundaryRip := boundaryRip (UInt64.ofNat e.icount)
      payload }
  match e.emission with
  | .epochHash k =>
    some (make kindEpochHash rflagAux (leBytes 8 k ++ (chainAfter blake3 seed l k).bytes))
  | .skew => none
  | .canonical ev => some (make ev.kind 0 ev.payloadBytes)
  | .frameMark i => some (make kindFrameMark rflagAux (le32 i ++ zeros 4))
  | .end_ =>
    some (make kindEnd rflagAux
      ([1] ++ zeros 7 ++ ((guest blake3 seed l e.icount).chainValue blake3).bytes))

def recordsOf : Nat → List Scheduled → List Record
  | _, [] => []
  | seq, e :: es =>
    let rs := (e.record blake3 seed l seq).toList
    rs ++ recordsOf (seq + rs.length) es

end Records

theorem le16_ofNat {n : Nat} (h : n < 2 ^ 16) : le16 (UInt16.ofNat n) = leBytes 2 n := by
  rw [le16, UInt16.toNat_ofNat_of_lt' h]

theorem le64_ofNat {n : Nat} (h : n < u64Bound) : le64 (UInt64.ofNat n) = leBytes 8 n := by
  rw [le64, UInt64.toNat_ofNat_of_lt' h]

theorem pushRecord_eq_ok {ε : Type} {body body' payload : Bytes} {kind rflags : UInt8}
    {seq icount : Nat} :
    (pushRecord body kind rflags seq icount payload : Outcome ε Bytes) = .ok body' ↔
      payload.length ≤ 4096 ∧
        body' = body ++ Record.encode ⟨kind, rflags, UInt32.ofNat seq, UInt64.ofNat icount,
          boundaryRip (UInt64.ofNat icount), payload⟩ := by
  rw [pushRecord]
  by_cases hlen : payload.length ≤ 4096
  · have hpad : (8 - payload.length % 8) % 8 = pad8 payload.length - payload.length := by
      unfold pad8
      omega
    rw [require_pos hlen, ok_bind, pure_eq, Outcome.ok.injEq, le16_ofNat (by omega), hpad,
      and_iff_right hlen, eq_comm]
    simp [Record.encode, Record.headerBytes, Record.padLen]
  · constructor
    · intro h
      obtain ⟨_, hreq, -⟩ := bind_eq_ok.mp h
      exact absurd (require_eq_ok.mp hreq) hlen
    · exact fun h => absurd h.1 hlen

theorem nextSeq_eq_ok {ε : Type} {seq seq' : Nat} :
    (nextSeq seq : Outcome ε Nat) = .ok seq' ↔ seq + 1 < 2 ^ 32 ∧ seq' = seq + 1 := by
  constructor
  · intro h
    obtain ⟨_, hlt, hseq⟩ := bind_eq_ok.mp h
    exact ⟨require_eq_ok.mp hlt, (Outcome.ok.inj hseq).symm⟩
  · rintro ⟨hlt, rfl⟩
    exact bind_eq_ok.mpr ⟨(), require_pos hlt, rfl⟩

/-- A record is pushed and then counted; `f` is the state that comes of it. -/
theorem pushCounted_eq_ok {ε : Type} {body payload : Bytes} {kind rflags : UInt8}
    {seq icount : Nat} {f : Bytes → Nat → WriterState} {w : WriterState} :
    ((pushRecord body kind rflags seq icount payload >>= fun body' =>
        nextSeq seq >>= fun seq' => pure (f body' seq')) : Outcome ε WriterState) = .ok w ↔
      payload.length ≤ 4096 ∧ seq + 1 < 2 ^ 32 ∧
        w = f (body ++ Record.encode ⟨kind, rflags, UInt32.ofNat seq, UInt64.ofNat icount,
          boundaryRip (UInt64.ofNat icount), payload⟩) (seq + 1) := by
  constructor
  · intro h
    obtain ⟨body', hpush, h⟩ := bind_eq_ok.mp h
    obtain ⟨seq', hseq, h⟩ := bind_eq_ok.mp h
    obtain ⟨hlen, rfl⟩ := pushRecord_eq_ok.mp hpush
    obtain ⟨hlt, rfl⟩ := nextSeq_eq_ok.mp hseq
    exact ⟨hlen, hlt, (Outcome.ok.inj h).symm⟩
  · rintro ⟨hlen, hlt, rfl⟩
    exact bind_eq_ok.mpr ⟨_, pushRecord_eq_ok.mpr ⟨hlen, rfl⟩,
      bind_eq_ok.mpr ⟨_, nextSeq_eq_ok.mpr ⟨hlt, rfl⟩, rfl⟩⟩

/-- What the writer asserts of a payload; the bound on device data is that on
every payload. -/
def CanonicalEvent.Fits : CanonicalEvent → Prop
  | .padSet .. => True
  | .devEvent _ _ data => data.length ≤ 4088
  | .netRx frame => frame.length ≤ 2048

instance : DecidablePred CanonicalEvent.Fits
  | .padSet .. => inferInstanceAs (Decidable True)
  | .devEvent .. => inferInstanceAs (Decidable (_ ≤ _))
  | .netRx _ => inferInstanceAs (Decidable (_ ≤ _))

theorem CanonicalEvent.Fits.length_le {ev : CanonicalEvent} (h : ev.Fits) :
    ev.payloadBytes.length ≤ 4096 := by
  cases ev with
  | padSet port buttons frameHint => simp [CanonicalEvent.payloadBytes]
  | devEvent deviceId eventType data =>
      have hdata : data.length ≤ 4088 := h
      simp only [CanonicalEvent.payloadBytes, List.length_append, length_le16, length_le32]
      omega
  | netRx frame =>
      have hframe : frame.length ≤ 2048 := h
      exact hframe.trans (by decide)

theorem CanonicalEvent.Fits.payload {ε : Type} {ev : CanonicalEvent} (h : ev.Fits) :
    (ev.payload : Outcome ε Bytes) = .ok ev.payloadBytes := by
  cases ev with
  | padSet port buttons frameHint => rfl
  | devEvent deviceId eventType data => rfl
  | netRx frame => exact bind_eq_ok.mpr ⟨(), require_pos h, rfl⟩

theorem payload_eq_ok {ε : Type} {ev : CanonicalEvent} {payload : Bytes}
    (h : (ev.payload : Outcome ε Bytes) = .ok payload) : payload = ev.payloadBytes := by
  cases ev with
  | padSet port buttons frameHint => exact (Outcome.ok.inj h).symm
  | devEvent deviceId eventType data => exact (Outcome.ok.inj h).symm
  | netRx frame =>
      obtain ⟨_, -, hpayload⟩ := bind_eq_ok.mp h
      exact (Outcome.ok.inj hpayload).symm

/-- A payload that was built, and that is not too long, is that of an event that
fits. -/
theorem fits_of_payload {ε : Type} {ev : CanonicalEvent} {payload : Bytes}
    (h : (ev.payload : Outcome ε Bytes) = .ok payload) (hlen : payload.length ≤ 4096) :
    ev.Fits := by
  obtain rfl := payload_eq_ok h
  cases ev with
  | padSet port buttons frameHint => exact trivial
  | devEvent deviceId eventType data =>
      have hdata : data.length ≤ 4088 := by
        simp only [CanonicalEvent.payloadBytes, List.length_append, length_le16,
          length_le32] at hlen
        omega
      exact hdata
  | netRx frame =>
      obtain ⟨_, hframe, _⟩ := bind_eq_ok.mp h
      exact require_eq_ok.mp hframe

theorem foldBytes_foldBytes {sim : GuestSim} {a b : Bytes} :
    (sim.foldBytes a).foldBytes b = sim.foldBytes (a ++ b) := by
  simp only [GuestSim.foldBytes, fnvFold_append]

section Emit

variable {blake3 : Bytes → Bytes32} {seed : Bytes32} {ε : Type}

structure Emitted (blake3 : Bytes → Bytes32) (seed : Bytes32) (l p : List Moment) (e : Scheduled)
    (w w' : WriterState) : Prop where
  sim : w'.sim = guest blake3 seed (p ++ e.folds) e.icount
  body : w'.body = w.body ++ (e.record blake3 seed l w.seq).toList.flatMap Record.encode
  seq : w'.seq = w.seq + (e.record blake3 seed l w.seq).toList.length
  seq_lt : w.seq < 2 ^ 32 → w'.seq < 2 ^ 32
  payload_le : ∀ r ∈ e.record blake3 seed l w.seq, r.payload.length ≤ 4096
  hash : e.emission = .end_ → w'.endStateHash = (guest blake3 seed l e.icount).chainValue blake3

/-- One emission: the fold it makes, and the record it appends. -/
theorem emit_spec {l p : List Moment} {e : Scheduled} {w w' : WriterState}
    (h : (emit blake3 w e : Outcome ε WriterState) = .ok w')
    (hsim : w.sim = guest blake3 seed p e.icount)
    (hchain : ∀ k, e.emission = .epochHash k → w.sim.chain = chainAfter blake3 seed l k)
    (hend : e.emission = .end_ → p = l) : Emitted blake3 seed l p e w w' := by
  unfold emit at h
  cases hem : e.emission with
  | epochHash k =>
      simp only [hem] at h
      obtain ⟨hlen, hlt, rfl⟩ := pushCounted_eq_ok.mp h
      -- the chain it writes is the recorded one at its boundary
      rw [hchain k hem] at hlen ⊢
      constructor
      case seq_lt => exact fun _ => hlt
      all_goals simp [Scheduled.folds, Scheduled.record, hem, hsim]
  | skew =>
      simp only [hem] at h
      obtain rfl := Outcome.ok.inj h
      constructor <;> simp [Scheduled.folds, Scheduled.record, hem, hsim, foldBytes_guest]
  | canonical ev =>
      simp only [hem] at h
      obtain ⟨sim, hfold, h⟩ := bind_eq_ok.mp h
      obtain ⟨payload, hpayload, h⟩ := bind_eq_ok.mp h
      obtain rfl := payload_eq_ok hpayload
      obtain ⟨hlen, hlt, rfl⟩ := pushCounted_eq_ok.mp h
      obtain ⟨_, hpayload', hfold⟩ := bind_eq_ok.mp hfold
      obtain rfl := payload_eq_ok hpayload'
      obtain rfl := Outcome.ok.inj hfold
      have hsimFold : (w.sim.foldBytes [ev.kind]).foldBytes ev.payloadBytes =
          guest blake3 seed (p ++ [(e.icount, ev.kind :: ev.payloadBytes)]) e.icount := by
        rw [hsim, foldBytes_foldBytes, foldBytes_guest, List.singleton_append]
      constructor
      case seq_lt => exact fun _ => hlt
      all_goals simp [Scheduled.folds, Scheduled.record, hem, hsimFold, hlen]
  | frameMark i =>
      simp only [hem] at h
      obtain ⟨hlen, hlt, rfl⟩ := pushCounted_eq_ok.mp h
      constructor
      case seq_lt => exact fun _ => hlt
      all_goals simp [Scheduled.folds, Scheduled.record, hem, hsim]
  | end_ =>
      simp only [hem] at h
      obtain ⟨hlen, hlt, rfl⟩ := pushCounted_eq_ok.mp h
      -- at END everything has been folded
      obtain rfl := hend hem
      constructor
      case seq_lt => exact fun _ => hlt
      all_goals simp [Scheduled.folds, Scheduled.record, hem, hsim]

theorem exists_emit {l : List Moment} {e : Scheduled} {w : WriterState}
    (hfits : ∀ ev, e.emission = .canonical ev → ev.Fits)
    (hseq : w.seq + (e.record blake3 seed l w.seq).toList.length < 2 ^ 32) :
    ∃ w', (emit blake3 w e : Outcome ε WriterState) = .ok w' := by
  unfold Scheduled.record at hseq
  unfold emit
  cases hem : e.emission with
  | epochHash k =>
      rw [hem] at hseq
      have hlen : (leBytes 8 k ++ w.sim.chain.bytes).length ≤ 4096 := by simp
      exact ⟨_, pushCounted_eq_ok.mpr ⟨hlen, hseq, rfl⟩⟩
  | skew => exact ⟨_, rfl⟩
  | canonical ev =>
      rw [hem] at hseq
      have hpayload := (hfits ev hem).payload (ε := ε)
      have hfold : (ev.foldInto w.sim : Outcome ε GuestSim) =
          .ok ((w.sim.foldBytes [ev.kind]).foldBytes ev.payloadBytes) :=
        bind_eq_ok.mpr ⟨_, hpayload, rfl⟩
      exact ⟨_, bind_eq_ok.mpr ⟨_, hfold, bind_eq_ok.mpr ⟨_, hpayload,
        pushCounted_eq_ok.mpr ⟨(hfits ev hem).length_le, hseq, rfl⟩⟩⟩⟩
  | frameMark i =>
      rw [hem] at hseq
      have hlen : (le32 i ++ zeros 4).length ≤ 4096 := by simp
      exact ⟨_, pushCounted_eq_ok.mpr ⟨hlen, hseq, rfl⟩⟩
  | end_ =>
      rw [hem] at hseq
      have hlen : ([1] ++ zeros 7 ++ (w.sim.chainValue blake3).bytes).length ≤ 4096 := by simp
      exact ⟨_, pushCounted_eq_ok.mpr ⟨hlen, hseq, rfl⟩⟩

/-- The writer's loop with `S` still to emit: `p` has been folded and `l`
will have been at the end. -/
structure Emitting (blake3 : Bytes → Bytes32) (seed : Bytes32) (l : List Moment) (endIcount : Nat)
    (p : List Moment) (t : Nat) (w : WriterState) (S : List Scheduled) : Prop where
  sim : w.sim = guest blake3 seed p t
  folded : ∀ m ∈ p, m.1 ≤ t
  rest : l = p ++ S.flatMap Scheduled.folds
  icounts : ∀ e ∈ S, t ≤ e.icount ∧ e.icount ≤ endIcount
  sorted : S.Pairwise fun e e' => e.icount ≤ e'.icount
  epochs : ∀ e ∈ S, ∀ k, e.emission = .epochHash k → e.icount = k * mockEpochIcounts
  ends : ∀ S₁ e S₂, S = S₁ ++ e :: S₂ → e.emission = .end_ → S₂ = []

theorem Emitting.step {l p : List Moment} {endIcount t : Nat} {w : WriterState} {e : Scheduled}
    {S : List Scheduled} (h : Emitting blake3 seed l endIcount p t w (e :: S))
    (hbound : (endIcount / mockEpochIcounts + 1) * mockEpochIcounts < u64Bound) :
    (w.sim.stepTo blake3 e.icount : Outcome ε GuestSim) =
        .ok (guest blake3 seed p e.icount) ∧
      ∀ w', (emit blake3 { w with sim := guest blake3 seed p e.icount } e :
          Outcome ε WriterState) = .ok w' →
        Emitted blake3 seed l p e w w' ∧
          Emitting blake3 seed l endIcount (p ++ e.folds) e.icount w' S := by
  obtain ⟨hte, hend⟩ := h.icounts e (List.mem_cons_self ..)
  obtain ⟨hhead, htail⟩ := List.pairwise_cons.mp h.sorted
  constructor
  · rw [h.sim]
    exact stepTo_guest h.folded hte (nextBoundary_lt hend hbound)
  · intro w' hemit
    -- the chain at a boundary is settled, whatever is folded later
    have hchain : ∀ k, e.emission = .epochHash k →
        (guest blake3 seed p e.icount).chain = chainAfter blake3 seed l k := by
      intro k hk
      have hicount := h.epochs e (List.mem_cons_self ..) k hk
      have hboundary : e.icount / mockEpochIcounts = k := by
        rw [hicount]
        exact Nat.mul_div_cancel k (by decide)
      rw [guest, hboundary]
      apply chainAfter_congr
      intro s hs
      have hnil : before s (e.folds ++ S.flatMap Scheduled.folds) = [] := by
        apply before_eq_nil
        intro m hm
        rcases List.mem_append.mp hm with hm | hm
        · rw [Scheduled.fst_of_mem_folds hm, hicount]
          exact hs
        · obtain ⟨e', he', hm⟩ := List.mem_flatMap.mp hm
          rw [Scheduled.fst_of_mem_folds hm]
          have hle := hhead e' he'
          omega
      rw [h.rest, List.flatMap_cons, before_append, hnil, List.append_nil]
    have hlast : e.emission = .end_ → p = l := by
      intro hem
      have hfolds : e.folds = [] := by
        unfold Scheduled.folds
        rw [hem]
      rw [h.rest, List.flatMap_cons, h.ends [] e S rfl hem, hfolds]
      simp
    have hspec := emit_spec hemit rfl hchain hlast
    refine ⟨⟨hspec.sim, hspec.body, hspec.seq, hspec.seq_lt, hspec.payload_le, hspec.hash⟩,
      hspec.sim, ?_, ?_, ?_, htail, ?_, ?_⟩
    · exact folded_append h.folded hte fun m hm => Scheduled.fst_of_mem_folds hm
    · rw [h.rest, List.flatMap_cons, List.append_assoc]
    · exact fun e' he' => ⟨hhead e' he', (h.icounts e' (List.mem_cons_of_mem e he')).2⟩
    · exact fun e' he' => h.epochs e' (List.mem_cons_of_mem e he')
    · exact fun S₁ e' S₂ hS => h.ends (e :: S₁) e' S₂ (by rw [hS, List.cons_append])

structure EmittedAll (blake3 : Bytes → Bytes32) (seed : Bytes32) (l : List Moment)
    (S : List Scheduled) (w w' : WriterState) : Prop where
  body : w'.body = w.body ++ (recordsOf blake3 seed l w.seq S).flatMap Record.encode
  seq : w'.seq = w.seq + (recordsOf blake3 seed l w.seq S).length
  seq_lt : w.seq < 2 ^ 32 → w'.seq < 2 ^ 32
  payload_le : ∀ r ∈ recordsOf blake3 seed l w.seq S, r.payload.length ≤ 4096
  hash : ∀ e ∈ S, e.emission = .end_ →
    w'.endStateHash = (guest blake3 seed l e.icount).chainValue blake3

theorem emitAll_spec {l : List Moment} {endIcount : Nat} {S : List Scheduled}
    (hbound : (endIcount / mockEpochIcounts + 1) * mockEpochIcounts < u64Bound) :
    ∀ {p : List Moment} {t : Nat} {w w' : WriterState},
      (emitAll blake3 w S : Outcome ε WriterState) = .ok w' →
      Emitting blake3 seed l endIcount p t w S → EmittedAll blake3 seed l S w w' := by
  induction S with
  | nil =>
      intro p t w w' h _
      obtain rfl := Outcome.ok.inj h
      constructor <;> simp [recordsOf]
  | cons e S ih =>
      intro p t w w' h hw
      obtain ⟨hstep, hnext⟩ := hw.step (ε := ε) hbound
      obtain ⟨sim, hsim, h⟩ := bind_eq_ok.mp h
      obtain ⟨w₁, hemit, hrest⟩ := bind_eq_ok.mp h
      obtain rfl := Outcome.ok.inj (hstep.symm.trans hsim)
      obtain ⟨hone, hw₁⟩ := hnext w₁ hemit
      have hall := ih hrest hw₁
      have hbody := hall.body
      have hseq := hall.seq
      have hpayload := hall.payload_le
      rw [hone.seq] at hbody hseq hpayload
      refine ⟨?_, ?_, fun hlt => hall.seq_lt (hone.seq_lt hlt), ?_, ?_⟩
      · rw [hbody, hone.body, recordsOf, List.flatMap_append, List.append_assoc]
      · rw [hseq, recordsOf, List.length_append, Nat.add_assoc]
      · intro r hr
        rcases List.mem_append.mp hr with hr | hr
        · exact hone.payload_le r (Option.mem_toList.mp hr)
        · exact hpayload r hr
      · intro e' he' hem
        rcases List.mem_cons.mp he' with rfl | he'
        · -- nothing follows END
          have hnil := hw.ends [] e' S rfl hem
          subst hnil
          obtain rfl := Outcome.ok.inj hrest
          exact hone.hash hem
        · exact hall.hash e' he' hem

theorem exists_emitAll {l : List Moment} {endIcount : Nat} {S : List Scheduled}
    (hbound : (endIcount / mockEpochIcounts + 1) * mockEpochIcounts < u64Bound) :
    ∀ {p : List Moment} {t : Nat} {w : WriterState}, Emitting blake3 seed l endIcount p t w S →
      (∀ e ∈ S, ∀ ev, e.emission = .canonical ev → ev.Fits) →
      w.seq + (recordsOf blake3 seed l w.seq S).length < 2 ^ 32 →
      ∃ w', (emitAll blake3 w S : Outcome ε WriterState) = .ok w' := by
  induction S with
  | nil => exact fun _ _ _ => ⟨_, rfl⟩
  | cons e S ih =>
      intro p t w hw hfits hcount
      obtain ⟨hstep, hnext⟩ := hw.step (ε := ε) hbound
      rw [recordsOf, List.length_append, ← Nat.add_assoc] at hcount
      have hone : w.seq + (e.record blake3 seed l w.seq).toList.length < 2 ^ 32 :=
        lt_of_le_of_lt (Nat.le_add_right _ _) hcount
      obtain ⟨w₁, hemit⟩ : ∃ w₁, (emit blake3 { w with sim := guest blake3 seed p e.icount } e :
          Outcome ε WriterState) = .ok w₁ := exists_emit (hfits e (List.mem_cons_self ..)) hone
      obtain ⟨hone, hw₁⟩ := hnext w₁ hemit
      obtain ⟨w', hrest⟩ := ih hw₁ (fun e' he' => hfits e' (List.mem_cons_of_mem e he'))
        (by rwa [hone.seq])
      exact ⟨w', bind_eq_ok.mpr ⟨_, hstep, bind_eq_ok.mpr ⟨_, hemit, hrest⟩⟩⟩

theorem bound_of_emitAll {S : List Scheduled} {w w' : WriterState}
    (h : (emitAll blake3 w S : Outcome ε WriterState) = .ok w') {e : Scheduled} (he : e ∈ S) :
    (e.icount / mockEpochIcounts + 1) * mockEpochIcounts < u64Bound := by
  induction S generalizing w with
  | nil => cases he
  | cons e' S ih =>
      obtain ⟨sim, hstep, h⟩ := bind_eq_ok.mp h
      obtain ⟨w₁, -, hrest⟩ := bind_eq_ok.mp h
      rcases List.mem_cons.mp he with rfl | he
      · exact bound_of_stepTo hstep
      · exact ih hrest he

theorem fits_of_emit {e : Scheduled} {w w' : WriterState} {ev : CanonicalEvent}
    (h : (emit blake3 w e : Outcome ε WriterState) = .ok w') (hem : e.emission = .canonical ev) :
    ev.Fits := by
  unfold emit at h
  simp only [hem] at h
  obtain ⟨_, -, h⟩ := bind_eq_ok.mp h
  obtain ⟨payload, hpayload, h⟩ := bind_eq_ok.mp h
  obtain ⟨hlen, -, -⟩ := pushCounted_eq_ok.mp h
  exact fits_of_payload hpayload hlen

theorem fits_of_emitAll {S : List Scheduled} {w w' : WriterState}
    (h : (emitAll blake3 w S : Outcome ε WriterState) = .ok w') {e : Scheduled} (he : e ∈ S)
    {ev : CanonicalEvent} (hem : e.emission = .canonical ev) : ev.Fits := by
  induction S generalizing w with
  | nil => cases he
  | cons e' S ih =>
      obtain ⟨sim, -, h⟩ := bind_eq_ok.mp h
      obtain ⟨w₁, hemit, hrest⟩ := bind_eq_ok.mp h
      rcases List.mem_cons.mp he with rfl | he
      · exact fits_of_emit hemit hem
      · exact ih hrest he

end Emit

/-! ### The segment -/

def SegmentSpec.header (spec : SegmentSpec) (flags : UInt32) (recordCount endVns : UInt64)
    (endStateHash bodyHash : Bytes32) : DhilogHeader :=
  { version := 0x0100
    flags
    baseSnapshotId := spec.baseSnapshotId
    endSnapshotId := spec.endSnapshotId
    entropySeed := spec.entropySeed
    machineConfigHash := spec.machineConfigHash
    clockNum := spec.clockNum
    clockDen := spec.clockDen
    recordCount
    endIcount := spec.endIcount
    endVns
    endStateHash
    bodyHash }

theorem SegmentSpec.headerBytes_eq (spec : SegmentSpec) {flags : UInt32}
    {recordCount endVns : UInt64} {endStateHash bodyHash : Bytes32} :
    spec.headerBytes flags recordCount endVns endStateHash bodyHash =
      (spec.header flags recordCount endVns endStateHash bodyHash).encode := by
  have hzero : zeros dhilogHeaderLen = [] ++ zeros dhilogHeaderLen := rfl
  have hmagic : dhilogMagic.length = 6 := rfl
  rw [SegmentSpec.headerBytes, hzero]
  simp (disch := simp [hmagic]) only [copyAt_append_zeros]
  simp [SegmentSpec.header, DhilogHeader.encode, dhilogHeaderLen]

theorem pairwise_icount {l : List ScriptEvent}
    (h : l.IsChain fun a b => a.icount ≤ b.icount) :
    l.Pairwise fun a b => a.icount ≤ b.icount := by
  have htrans : Trans (fun a b : ScriptEvent => a.icount ≤ b.icount)
      (fun a b : ScriptEvent => a.icount ≤ b.icount)
      (fun a b : ScriptEvent => a.icount ≤ b.icount) := ⟨UInt64.le_trans⟩
  exact h.pairwise

def SegmentSpec.seed (blake3 : Bytes → Bytes32) (spec : SegmentSpec) : Bytes32 :=
  chainSeed blake3 spec.machineConfigHash spec.baseSnapshotId

def SegmentSpec.recordList (blake3 : Bytes → Bytes32) (spec : SegmentSpec) : List Record :=
  recordsOf blake3 (spec.seed blake3) spec.recording 0 spec.order

def SegmentSpec.flags (spec : SegmentSpec) : UInt32 :=
  if spec.omitEpochHashes then flagSealed ||| flagHasAux
  else flagSealed ||| flagHasAux ||| flagEpochHashes

/-- What a replay finds in a segment that was recorded from a spec. -/
structure Recorded (blake3 : Bytes → Bytes32) (spec : SegmentSpec) (segment : DhilogSegment)
    (hash : Bytes32) : Prop where
  valid : Recordable spec
  base : segment.header.baseSnapshotId = spec.baseSnapshotId
  config : segment.header.machineConfigHash = spec.machineConfigHash
  endIcount : segment.header.endIcount = spec.endIcount
  endStateHash : segment.header.endStateHash = hash
  hash_eq : hash = (guestAt blake3 (spec.seed blake3) spec.recording
    spec.endIcount.toNat).chainValue blake3
  records : ∀ {ε : Type}, (segment.records : Outcome ε _) =
    .ok ((spec.recordList blake3).map framed)

/-- And what else the writer puts there. -/
structure WrittenAs (blake3 : Bytes → Bytes32) (spec : SegmentSpec) (segment : DhilogSegment)
    (hash : Bytes32) : Prop extends Recorded blake3 spec segment hash where
  header : ∃ endVns, segment.header = spec.header spec.flags
    (UInt64.ofNat (spec.recordList blake3).length) endVns hash
    (blake3 (segment.bytes.drop dhilogHeaderLen))
  body : segment.bytes.drop dhilogHeaderLen = (spec.recordList blake3).flatMap Record.encode
  payload_le : ∀ r ∈ spec.recordList blake3, r.payload.length ≤ 4096
  count_lt : (spec.recordList blake3).length < 2 ^ 32

theorem le_of_mem_recording {spec : SegmentSpec} (hv : Recordable spec) {m : Moment}
    (h : m ∈ spec.recording) : m.1 ≤ spec.endIcount.toNat := by
  rw [← flatMap_folds_order hv] at h
  obtain ⟨e, he, hm⟩ := List.mem_flatMap.mp h
  rw [Scheduled.fst_of_mem_folds hm]
  exact icount_le_of_mem_order hv he

theorem guestAt_end {blake3 : Bytes → Bytes32} {seed : Bytes32} {spec : SegmentSpec}
    (hv : Recordable spec) :
    guestAt blake3 seed spec.recording spec.endIcount.toNat =
      guest blake3 seed spec.recording spec.endIcount.toNat := by
  rw [guestAt, before_eq_self fun m hm => Nat.lt_succ_of_le (le_of_mem_recording hv hm)]

def SegmentSpec.start (blake3 : Bytes → Bytes32) (spec : SegmentSpec) : WriterState :=
  { sim := GuestSim.new blake3 spec.machineConfigHash spec.baseSnapshotId
    body := []
    seq := 0
    endStateHash := Bytes32.zero }

theorem emitting_order {blake3 : Bytes → Bytes32} {spec : SegmentSpec} (hv : Recordable spec) :
    Emitting blake3 (spec.seed blake3) spec.recording spec.endIcount.toNat [] 0
      (spec.start blake3) spec.order where
  sim := new_eq_guest
  folded := by simp
  rest := (flatMap_folds_order hv).symm
  icounts e he := ⟨Nat.zero_le _, icount_le_of_mem_order hv he⟩
  sorted := (pairwise_order spec).imp Scheduled.le.icount_le
  epochs e he k hk := icount_of_epochHash he hk
  ends S₁ e S₂ hsplit hem := eq_nil_of_end hv hsplit hem

def SegmentSpec.endVns (spec : SegmentSpec) : UInt64 :=
  UInt64.ofNat (spec.endIcount.toNat * spec.clockNum.toNat / spec.clockDen.toNat)

def WriterState.segment (blake3 : Bytes → Bytes32) (spec : SegmentSpec) (w : WriterState) :
    DhilogSegment :=
  DhilogSegment.ofParts (spec.header spec.flags (UInt64.ofNat w.seq) spec.endVns w.endStateHash
    (blake3 w.body)) w.body

/-- What the writer asserts, what it emits, and the file it lays out. -/
theorem writeSegment_eq_ok {blake3 : Bytes → Bytes32} {ε : Type} {spec : SegmentSpec}
    {bytes : Bytes} {hash : Bytes32} :
    (writeSegment blake3 spec : Outcome ε _) = .ok (bytes, hash) ↔
      (spec.events.IsChain fun a b => a.icount ≤ b.icount) ∧
        (∀ ev ∈ spec.events, ev.icount ≤ spec.endIcount) ∧
        (∀ fm ∈ spec.frameMarks, fm.icount ≤ spec.endIcount) ∧
        (∀ at_ ∈ spec.skewAt, at_ ≤ spec.endIcount) ∧
        (spec.omitEpochHashes = false → spec.Bounded) ∧
        spec.clockDen ≠ 0 ∧ spec.endIcount.toNat * spec.clockNum.toNat < 2 ^ 64 ∧
        ∃ w, (emitAll blake3 (spec.start blake3) spec.order : Outcome ε _) = .ok w ∧
          bytes = (w.segment blake3 spec).bytes ∧ hash = w.endStateHash := by
  have hbytes : ∀ w : WriterState,
      spec.headerBytes spec.flags (UInt64.ofNat w.seq) spec.endVns w.endStateHash
        (blake3 w.body) ++ w.body = (w.segment blake3 spec).bytes := by
    intro w
    rw [SegmentSpec.headerBytes_eq]
    rfl
  constructor
  · intro h
    obtain ⟨_, hchain, h⟩ := bind_eq_ok.mp h
    obtain ⟨_, hevents, h⟩ := bind_eq_ok.mp h
    obtain ⟨_, hframes, h⟩ := bind_eq_ok.mp h
    obtain ⟨S, hemissions, h⟩ := bind_eq_ok.mp h
    obtain ⟨w, hemit, h⟩ := bind_eq_ok.mp h
    obtain ⟨_, hden, h⟩ := bind_eq_ok.mp h
    obtain ⟨product, hproduct, h⟩ := bind_eq_ok.mp h
    obtain ⟨rfl, hskew, hbound⟩ := emissions_eq_ok.mp hemissions
    obtain ⟨hlt, rfl⟩ := u64Mul_eq_ok.mp hproduct
    obtain ⟨rfl, rfl⟩ := Prod.mk.inj (Outcome.ok.inj h)
    exact ⟨require_eq_ok.mp hchain, require_eq_ok.mp hevents, require_eq_ok.mp hframes, hskew,
      hbound, require_eq_ok.mp hden, hlt, w, hemit, hbytes w, rfl⟩
  · rintro ⟨hchain, hevents, hframes, hskew, hbound, hden, hlt, w, hemit, rfl, rfl⟩
    have hemissions : (spec.emissions : Outcome ε _) = .ok spec.order :=
      emissions_eq_ok.mpr ⟨rfl, hskew, hbound⟩
    rw [← hbytes w]
    exact bind_eq_ok.mpr ⟨(), require_pos hchain, bind_eq_ok.mpr ⟨(), require_pos hevents,
      bind_eq_ok.mpr ⟨(), require_pos hframes, bind_eq_ok.mpr ⟨_, hemissions,
      bind_eq_ok.mpr ⟨w, hemit, bind_eq_ok.mpr ⟨(), require_pos hden,
      bind_eq_ok.mpr ⟨_, u64Mul_of_lt hlt, rfl⟩⟩⟩⟩⟩⟩⟩

/-- What the writer accepts it writes as it should be read. -/
theorem writtenAs_of_writeSegment {blake3 : Bytes → Bytes32} {ε : Type} {spec : SegmentSpec}
    {bytes : Bytes} {hash : Bytes32}
    (h : (writeSegment blake3 spec : Outcome ε _) = .ok (bytes, hash)) :
    ∃ segment, DhilogSegment.parse bytes = .ok segment ∧ WrittenAs blake3 spec segment hash := by
  obtain ⟨hchain, hevents, hframes, hskew, -, -, -, w, hemit, hbytes, rfl⟩ :=
    writeSegment_eq_ok.mp h
  have hend : spec.endEmission ∈ spec.order := mem_order.mpr (by simp)
  have hbound := bound_of_emitAll hemit hend
  have hv : Recordable spec :=
    { sorted := pairwise_icount hchain
      events_le := hevents
      frames_le := hframes
      skew_le := hskew
      bound := hbound }
  have hall := emitAll_spec hv.bound hemit (emitting_order hv)
  have hseq : w.seq = (spec.recordList blake3).length := hall.seq.trans (Nat.zero_add _)
  have hhash : w.endStateHash = (guestAt blake3 (spec.seed blake3) spec.recording
      spec.endIcount.toNat).chainValue blake3 := by
    rw [guestAt_end hv]
    exact hall.hash spec.endEmission hend rfl
  have hparts := hbytes.symm
  rw [WriterState.segment, hseq] at hparts
  generalize hsegment : DhilogSegment.ofParts _ w.body = segment at hparts
  have hdrop : segment.bytes.drop dhilogHeaderLen = w.body :=
    hsegment ▸ DhilogSegment.drop_ofParts _ w.body
  have hbody : segment.bytes.drop dhilogHeaderLen =
      (spec.recordList blake3).flatMap Record.encode := hdrop.trans hall.body
  have hheader : segment.header = spec.header spec.flags
      (UInt64.ofNat (spec.recordList blake3).length) spec.endVns w.endStateHash
      (blake3 (segment.bytes.drop dhilogHeaderLen)) := by
    rw [hdrop, ← hsegment]
    rfl
  refine ⟨segment, DhilogSegment.parse_eq_ok.mpr hparts, ⟨hv, ?_, ?_, ?_, ?_, hhash, ?_⟩,
    ⟨spec.endVns, hheader⟩, hbody, hall.payload_le, ?_⟩
  · rw [hheader]
    rfl
  · rw [hheader]
    rfl
  · rw [hheader]
    rfl
  · rw [hheader]
    rfl
  · intro ε
    obtain ⟨items, hitems, hspec⟩ := DhilogSegment.records_eq_ok (ε := ε) segment
    have hlen : ∀ r ∈ spec.recordList blake3, r.payload.length < 2 ^ 16 := by
      intro r hr
      have hle := hall.payload_le r hr
      omega
    rw [hitems, (hspec _).mpr ⟨hbody, hlen⟩]
  · rw [← hseq]
    exact hall.seq_lt (Nat.two_pow_pos 32)

theorem WrittenAs.hashed {blake3 : Bytes → Bytes32} {spec : SegmentSpec} {segment : DhilogSegment}
    {hash : Bytes32} (hw : WrittenAs blake3 spec segment hash)
    (homit : spec.omitEpochHashes = false) : segment.header.flags &&& flagEpochHashes ≠ 0 := by
  obtain ⟨endVns, hheader⟩ := hw.header
  have hflags : (flagSealed ||| flagHasAux ||| flagEpochHashes) &&& flagEpochHashes ≠ 0 := by
    decide
  rw [hheader, SegmentSpec.header, SegmentSpec.flags, homit]
  exact hflags

/-- A recording with its epochs that was skewed at `at_`. -/
structure SkewedAs (blake3 : Bytes → Bytes32) (spec : SegmentSpec) (at_ : UInt64)
    (segment : DhilogSegment) (hash : Bytes32) : Prop
    extends WrittenAs blake3 spec segment hash where
  skewAt_eq : spec.skewAt = some at_
  omit_eq : spec.omitEpochHashes = false

theorem skewedAs_of_writeSegment {blake3 : Bytes → Bytes32} {ε : Type} {spec : SegmentSpec}
    {at_ : UInt64} {bytes : Bytes} {hash : Bytes32}
    (h : (writeSegment blake3 spec : Outcome ε _) = .ok (bytes, hash))
    (homit : spec.omitEpochHashes = false) (hskew : spec.skewAt = some at_) :
    ∃ segment, DhilogSegment.parse bytes = .ok segment ∧
      SkewedAs blake3 spec at_ segment hash := by
  obtain ⟨segment, hparse, hw⟩ := writtenAs_of_writeSegment h
  exact ⟨segment, hparse, hw, hskew, homit⟩

end ReplayRenderer
