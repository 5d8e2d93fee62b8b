import ReplayRenderer.Verify.Recording

/-!
The mock's replays of any segment that the validator accepts. A replay walks
the records with a defect's fold perhaps still to come; what it has folded and
what is left to fold is at every point one timeline, the canonical records
with the fold in its place. `sim_to` and an honest replay take the same steps
along it.
-/

namespace ReplayRenderer

open Lib Lib.Outcome

/-! ### Records that can be applied -/

structure Applicable (end_ : Nat) (rs : List Record) : Prop where
  sorted : rs.Pairwise fun r r' => r.icount.toNat ≤ r'.icount.toNat
  icount_le : ∀ r ∈ rs, r.icount.toNat ≤ end_
  canonical : ∀ r ∈ rs, r.isAux = false →
    r.kind = kindPadSet ∨ r.kind = kindDevEvent ∨ r.kind = kindNetRx
  atEnd : ∀ r ∈ rs, r.isAux = true → r.kind = kindEnd → r.icount.toNat = end_

theorem Applicable.tail {end_ : Nat} {r : Record} {rs : List Record}
    (h : Applicable end_ (r :: rs)) : Applicable end_ rs where
  sorted := (List.pairwise_cons.mp h.sorted).2
  icount_le q hq := h.icount_le q (List.mem_cons_of_mem _ hq)
  canonical q hq := h.canonical q (List.mem_cons_of_mem _ hq)
  atEnd q hq := h.atEnd q (List.mem_cons_of_mem _ hq)

theorem Replayable.applicable {end_ : Nat} {rs : List Record} (h : Replayable end_ rs) :
    Applicable end_ rs where
  sorted := h.sorted
  icount_le := h.icount_le
  canonical := h.canonical
  atEnd := h.atEnd

theorem SealedSegment.applicable {blake3 : Bytes → Bytes32} {segment : DhilogSegment}
    {rs : List Record} (h : SealedSegment blake3 segment rs) :
    Applicable segment.header.endIcount.toNat rs where
  sorted := h.grammar.monotone.imp UInt64.le_iff_toNat_le.mp
  icount_le r hr := UInt64.le_iff_toNat_le.mp (h.grammar.allowed r hr).icount_le
  canonical r hr hcanon := by
    have hallowed := h.grammar.allowed r hr
    have haux : r.rflags ≠ rflagAux := fun haux =>
      absurd (((Record.isAux_iff hallowed.rflags).mpr haux).symm.trans hcanon) (by decide)
    exact (hallowed.canonical haux).imp id (Or.imp id And.left)
  atEnd r hr haux hkind := by
    obtain ⟨init, last, hsplit, hlast, hend, hinit⟩ := h.grammar.terminal
    have hisEnd : r.IsEnd :=
      ⟨hkind, (Record.isAux_iff (h.grammar.allowed r hr).rflags).mp haux⟩
    rw [hsplit] at hr
    rcases List.mem_append.mp hr with hr | hr
    · exact absurd hisEnd (hinit r hr)
    · rw [List.mem_singleton.mp hr, hend.icount]

structure Applies (segment : DhilogSegment) (rs : List Record) : Prop where
  records : ∀ {ε : Type}, (segment.records : Outcome ε _) = .ok (rs.map framed)
  applicable : Applicable segment.header.endIcount.toNat rs
  bound : (segment.header.endIcount.toNat / mockEpochIcounts + 1) * mockEpochIcounts < u64Bound

/-! ### A replay on its way -/

/-- What is still to come, with the fold in it unless it is done. -/
def VirtualFold.into (fold : VirtualFold) (l : List Moment) : List Moment :=
  if fold.done then l else withFold fold.at_ fold.bytes l

theorem VirtualFold.into_done {fold : VirtualFold} {l : List Moment} (h : fold.done = true) :
    fold.into l = l := if_pos h

theorem VirtualFold.into_pending {fold : VirtualFold} {l : List Moment} (h : fold.done = false) :
    fold.into l = withFold fold.at_ fold.bytes l := if_neg (Bool.eq_false_iff.mp h)

theorem VirtualFold.mem_into {fold : VirtualFold} {l : List Moment} {m : Moment}
    (h : m ∈ fold.into l) : m ∈ l ∨ (fold.done = false ∧ m = (fold.at_, fold.bytes)) := by
  cases hdone : fold.done with
  | true =>
      rw [into_done hdone] at h
      exact .inl h
  | false =>
      rw [into_pending hdone] at h
      rcases List.mem_append.mp h with hm | hm
      · exact .inl (List.mem_filter.mp hm).1
      · rcases List.mem_cons.mp hm with rfl | hm
        · exact .inr ⟨rfl, rfl⟩
        · exact .inl (List.mem_filter.mp hm).1

/-- A fold that is done, or not due before `t`. -/
def VirtualFold.Awaits (fold : VirtualFold) (t : Nat) : Prop := fold.done = true ∨ t ≤ fold.at_

/-- A fold that comes after the record: it is past it, or at a boundary whose
epoch the record is. -/
def VirtualFold.AwaitsRecord (fold : VirtualFold) (r : Record) : Prop :=
  fold.Awaits (r.icount.toNat + 1) ∨ (r.icount.toNat = fold.at_ ∧ r.kind = kindEpochHash)

theorem VirtualFold.AwaitsRecord.awaits {fold : VirtualFold} {r : Record}
    (h : fold.AwaitsRecord r) : fold.Awaits r.icount.toNat := by
  rcases h with (hdone | hat) | ⟨hat, -⟩
  · exact .inl hdone
  · exact .inr (Nat.le_of_succ_le hat)
  · exact .inr hat.le

section Replaying

variable (blake3 : Bytes → Bytes32) (seed : Bytes32)

/-- A replay of `l` that has folded `p` and stands at `t`, with `rs` still to
apply. -/
structure Replaying (l p : List Moment) (t : Nat) (fold : VirtualFold) (sim : GuestSim)
    (rs : List Record) : Prop where
  sim_eq : sim = guest blake3 seed p t
  folded : ∀ m ∈ p, m.1 ≤ t
  rest : l = p ++ fold.into (rs.flatMap Record.folds)
  awaits : fold.Awaits t
  ahead : ∀ r ∈ rs, t ≤ r.icount.toNat

variable {blake3 seed} {end_ : Nat} {l p : List Moment} {t : Nat} {fold : VirtualFold}
  {sim : GuestSim} {rs : List Record}

/-- Nothing that is still to come is due before `t`. -/
theorem le_of_mem_into (hfold : fold.Awaits t) (hrs : ∀ r ∈ rs, t ≤ r.icount.toNat) :
    ∀ m ∈ fold.into (rs.flatMap Record.folds), t ≤ m.1 := by
  intro m hm
  rcases VirtualFold.mem_into hm with hm | ⟨hdone, rfl⟩
  · obtain ⟨r, hr, hm⟩ := List.mem_flatMap.mp hm
    rw [Record.fst_of_mem_folds hm]
    exact hrs r hr
  · exact hfold.resolve_left (Bool.eq_false_iff.mp hdone)

theorem replaying_start {machineConfigHash baseSnapshotRef : Bytes32} (fold : VirtualFold)
    (rs : List Record) :
    Replaying blake3 (chainSeed blake3 machineConfigHash baseSnapshotRef)
      (fold.into (rs.flatMap Record.folds)) [] 0 fold
      (GuestSim.new blake3 machineConfigHash baseSnapshotRef) rs where
  sim_eq := new_eq_guest
  folded := by simp
  rest := rfl
  awaits := .inr (Nat.zero_le _)
  ahead _ _ := Nat.zero_le _

namespace Replaying

/-- The chain is that of the whole timeline: nothing still to come shows in
it. -/
theorem chain_eq (h : Replaying blake3 seed l p t fold sim rs) :
    sim.chain = chainAfter blake3 seed l (t / mockEpochIcounts) := by
  rw [h.sim_eq, h.rest, guest, chainAfter_append (le_of_mem_into h.awaits h.ahead)]

/-- Past the last of what is due at `t`, the guest is that of the timeline. -/
theorem sim_eq_guestAt (h : Replaying blake3 seed l p t fold sim rs)
    (hfold : fold.Awaits (t + 1)) (hrs : ∀ r ∈ rs, t + 1 ≤ r.icount.toNat) :
    sim = guestAt blake3 seed l t := by
  rw [h.sim_eq, guestAt, h.rest, before_append,
    before_eq_self fun m hm => Nat.lt_succ_of_le (h.folded m hm),
    before_eq_nil (le_of_mem_into hfold hrs), List.append_nil]

variable (hbound : (end_ / mockEpochIcounts + 1) * mockEpochIcounts < u64Bound)

include hbound

theorem stepTo {ε : Type} (h : Replaying blake3 seed l p t fold sim rs) {u : Nat} (htu : t ≤ u)
    (hu : u ≤ end_) (hfold : fold.Awaits u) (hrs : ∀ r ∈ rs, u ≤ r.icount.toNat) :
    ∃ sim', (sim.stepTo blake3 u : Outcome ε GuestSim) = .ok sim' ∧
      Replaying blake3 seed l p u fold sim' rs := by
  refine ⟨guest blake3 seed p u, ?_, rfl, fun m hm => (h.folded m hm).trans htu, h.rest, hfold, hrs⟩
  rw [h.sim_eq]
  exact stepTo_guest h.folded htu (nextBoundary_lt hu hbound)

/-- The fold is made where it stands, ahead of what is due there. -/
theorem apply {ε : Type} (h : Replaying blake3 seed l p t fold sim rs) (hdone : fold.done = false)
    (hat : fold.at_ ≤ end_) (hrs : ∀ r ∈ rs, fold.at_ ≤ r.icount.toNat) :
    ∃ p' fold' sim', (fold.apply blake3 sim : Outcome ε _) = .ok (fold', sim') ∧
      fold'.done = true ∧ Replaying blake3 seed l p' fold.at_ fold' sim' rs := by
  have htat : t ≤ fold.at_ := h.awaits.resolve_left (Bool.eq_false_iff.mp hdone)
  obtain ⟨sim₁, hstep, h₁⟩ := h.stepTo (ε := ε) hbound htat hat (.inr (le_refl _)) hrs
  refine ⟨p ++ [(fold.at_, fold.bytes)], { fold with done := true }, sim₁.foldBytes fold.bytes,
    ?_, rfl, ?_, ?_, ?_, .inl rfl, hrs⟩
  · rw [VirtualFold.apply, hstep, ok_bind, pure_eq]
  · rw [h₁.sim_eq, foldBytes_guest]
  · exact folded_append h.folded htat fun m hm => by rw [List.mem_singleton.mp hm]
  · have hlate : ∀ m ∈ rs.flatMap Record.folds, fold.at_ ≤ m.1 := by
      intro m hm
      obtain ⟨r, hr, hm⟩ := List.mem_flatMap.mp hm
      rw [Record.fst_of_mem_folds hm]
      exact hrs r hr
    rw [VirtualFold.into_done rfl, h.rest, VirtualFold.into_pending hdone, withFold_of_le hlate,
      List.append_assoc, List.singleton_append]

variable {r : Record}

/-- Ahead of a record the fold is made if it comes before it. -/
theorem maybeApply {ε : Type} (h : Replaying blake3 seed l p t fold sim (r :: rs))
    (ha : Applicable end_ (r :: rs)) :
    ∃ p' t' fold' sim',
      (fold.maybeApply blake3 sim r.icount.toNat (r.kind == kindEpochHash) : Outcome ε _) =
        .ok (fold', sim') ∧ t' ≤ r.icount.toNat ∧ fold'.AwaitsRecord r ∧
      Replaying blake3 seed l p' t' fold' sim' (r :: rs) := by
  have htr := h.ahead r (List.mem_cons_self ..)
  by_cases hdue : fold.done = false ∧ (fold.at_ < r.icount.toNat ∨
      (r.icount.toNat = fold.at_ ∧ (r.kind == kindEpochHash) = false))
  · obtain ⟨hdone, hat⟩ := hdue
    have hatr : fold.at_ ≤ r.icount.toNat := by omega
    have hrs : ∀ q ∈ r :: rs, fold.at_ ≤ q.icount.toNat := by
      intro q hq
      rcases List.mem_cons.mp hq with rfl | hq
      · exact hatr
      · exact hatr.trans ((List.pairwise_cons.mp ha.sorted).1 q hq)
    obtain ⟨p', fold', sim', happly, hdone', h'⟩ := h.apply (ε := ε) hbound hdone
      (hatr.trans (ha.icount_le r (List.mem_cons_self ..))) hrs
    refine ⟨p', fold.at_, fold', sim', ?_, hatr, .inl (.inl hdone'), h'⟩
    rw [VirtualFold.maybeApply, if_pos ⟨hdone, hat⟩, happly]
  · refine ⟨p, t, fold, sim, ?_, htr, ?_, h⟩
    · rw [VirtualFold.maybeApply, if_neg hdue]
    · cases hdone : fold.done with
      | true => exact .inl (.inl hdone)
      | false =>
          have hnot := fun hat => hdue ⟨hdone, hat⟩
          rcases Nat.lt_trichotomy r.icount.toNat fold.at_ with hlt | heq | hgt
          · exact .inl (.inr hlt)
          · -- at the fold's icount, and not due: an epoch
            refine .inr ⟨heq, ?_⟩
            by_contra hkind
            exact hnot (.inr ⟨heq, beq_eq_false_iff_ne.mpr hkind⟩)
          · exact absurd (.inl hgt) hnot

omit hbound in
/-- A record that the fold awaits folds nothing at the fold's icount: only an
epoch can stand there. -/
theorem folds_lt (ha : Applicable end_ (r :: rs)) (hr : fold.AwaitsRecord r)
    (hdone : fold.done = false) : ∀ m ∈ r.folds, m.1 < fold.at_ := by
  intro m hm
  rw [Record.fst_of_mem_folds hm]
  rcases hr with hlt | ⟨-, hkind⟩
  · exact hlt.resolve_left (Bool.eq_false_iff.mp hdone)
  · have haux : ¬r.isAux = true := by
      intro haux
      rw [Record.folds, if_pos haux] at hm
      cases hm
    have hkinds := ha.canonical r (List.mem_cons_self ..) (Bool.eq_false_iff.mpr haux)
    rw [hkind] at hkinds
    exact absurd hkinds (by decide)

/-- A record that the fold awaits is stepped to, and what it folds has then
been folded. -/
theorem next {ε : Type} (h : Replaying blake3 seed l p t fold sim (r :: rs))
    (ha : Applicable end_ (r :: rs)) (hr : fold.AwaitsRecord r) :
    (sim.stepTo blake3 r.icount.toNat : Outcome ε GuestSim) =
        .ok (guest blake3 seed p r.icount.toNat) ∧
      Replaying blake3 seed l (p ++ r.folds) r.icount.toNat fold
        (guest blake3 seed (p ++ r.folds) r.icount.toNat) rs := by
  have htr := h.ahead r (List.mem_cons_self ..)
  constructor
  · rw [h.sim_eq]
    exact stepTo_guest h.folded htr
      (nextBoundary_lt (ha.icount_le r (List.mem_cons_self ..)) hbound)
  · refine ⟨rfl, folded_append h.folded htr fun m hm => Record.fst_of_mem_folds hm, ?_, hr.awaits,
      (List.pairwise_cons.mp ha.sorted).1⟩
    rw [h.rest, List.flatMap_cons, List.append_assoc]
    congr 1
    cases hdone : fold.done with
    | true => rw [VirtualFold.into_done hdone, VirtualFold.into_done hdone]
    | false =>
        rw [VirtualFold.into_pending hdone, VirtualFold.into_pending hdone,
          withFold_append_of_lt (folds_lt ha hr hdone)]

theorem applyRecord (h : Replaying blake3 seed l p t fold sim (r :: rs))
    (ha : Applicable end_ (r :: rs)) (hr : fold.AwaitsRecord r) :
    ReplayRenderer.applyRecord blake3 sim r =
      .ok (guest blake3 seed (p ++ r.folds) r.icount.toNat) := by
  obtain ⟨hstep, -⟩ := h.next (ε := HvFault) hbound ha hr
  rw [ReplayRenderer.applyRecord]
  by_cases haux : r.isAux = true
  · rw [if_neg (Bool.not_eq_false _ ▸ haux), hstep, Record.folds, if_pos haux, List.append_nil]
  · have hcanon := Bool.eq_false_iff.mpr haux
    rw [if_pos hcanon, foldRecord, if_pos (ha.canonical r (List.mem_cons_self ..) hcanon), hstep,
      ok_bind, foldBytes_foldBytes, foldBytes_guest, pure_eq, Record.folds, if_neg haux,
      List.singleton_append]

/-- At a stop ahead of all the records that are left, the fold is made if it is
not past the stop. -/
theorem finish {ε : Type} (h : Replaying blake3 seed l p t fold sim rs) {stop : Nat}
    (hstop : stop ≤ end_) (ht : t ≤ stop) (hrs : ∀ r ∈ rs, stop + 1 ≤ r.icount.toNat) :
    ∃ p' t' fold' sim', (fold.finish blake3 sim stop : Outcome ε _) = .ok (fold', sim') ∧
      t' ≤ stop ∧ fold'.Awaits (stop + 1) ∧ Replaying blake3 seed l p' t' fold' sim' rs := by
  by_cases hdue : fold.done = false ∧ fold.at_ ≤ stop
  · obtain ⟨hdone, hat⟩ := hdue
    obtain ⟨p', fold', sim', happly, hdone', h'⟩ := h.apply (ε := ε) hbound hdone
      (hat.trans hstop) fun r hr => hat.trans (Nat.le_of_succ_le (hrs r hr))
    refine ⟨p', fold.at_, fold', sim', ?_, hat, .inl hdone', h'⟩
    rw [VirtualFold.finish, if_pos ⟨hdone, hat⟩, happly]
  · refine ⟨p, t, fold, sim, ?_, ht, ?_, h⟩
    · rw [VirtualFold.finish, if_neg hdue]
    · cases hdone : fold.done with
      | true => exact .inl hdone
      | false => exact .inr (not_le.mp fun hat => hdue ⟨hdone, hat⟩)

end Replaying

end Replaying

/-! ### A simulation -/

def simFrom (blake3 : Bytes → Bytes32) (stop : Nat) (fold : VirtualFold) (sim : GuestSim)
    (items : List RecordItem) : Outcome HvFault GuestSim := do
  let (fold, sim) ← simLoop blake3 stop fold sim items
  let (_, sim) ← fold.finish blake3 sim stop
  sim.stepTo blake3 stop

section Simulation

variable {blake3 : Bytes → Bytes32} {seed : Bytes32} {stop : Nat}

theorem simFrom_stop {fold : VirtualFold} {sim : GuestSim} {r : Record} {items : List RecordItem}
    (h : stop < r.icount.toNat) :
    simFrom blake3 stop fold sim (framed r :: items) = simFrom blake3 stop fold sim [] := by
  rw [simFrom, simLoop, framed, appliable, ok_bind, if_pos h]
  rfl

/-- Up to it, a record may make the fold due, and is then applied. -/
theorem simFrom_step {fold fold' : VirtualFold} {sim sim' sim'' : GuestSim} {r : Record}
    {items : List RecordItem} (h : r.icount.toNat ≤ stop)
    (hfold : (fold.maybeApply blake3 sim r.icount.toNat (r.kind == kindEpochHash) :
      Outcome HvFault _) = .ok (fold', sim'))
    (happly : applyRecord blake3 sim' r = .ok sim'') :
    simFrom blake3 stop fold sim (framed r :: items) = simFrom blake3 stop fold' sim'' items := by
  rw [simFrom, simLoop, framed, appliable, ok_bind, if_neg (not_lt.mpr h), hfold, ok_bind]
  simp only [happly, ok_bind]
  rfl

section Bound

variable {end_ : Nat} (hbound : (end_ / mockEpochIcounts + 1) * mockEpochIcounts < u64Bound)
  (hstop : stop ≤ end_)

include hbound hstop

theorem simFrom_late {l p : List Moment} {t : Nat} {fold : VirtualFold} {sim : GuestSim}
    {rs : List Record} (h : Replaying blake3 seed l p t fold sim rs) (ht : t ≤ stop)
    (hrs : ∀ r ∈ rs, stop + 1 ≤ r.icount.toNat) :
    simFrom blake3 stop fold sim [] = .ok (guestAt blake3 seed l stop) := by
  obtain ⟨p', t', fold', sim', hfinish, ht', hfold', h'⟩ :=
    h.finish (ε := HvFault) hbound hstop ht hrs
  obtain ⟨sim'', hstep, h''⟩ := h'.stepTo (ε := HvFault) hbound ht' hstop
    (hfold'.imp id Nat.le_of_succ_le) fun r hr => Nat.le_of_succ_le (hrs r hr)
  rw [simFrom, simLoop, ok_bind]
  simp only [hfinish, ok_bind]
  rw [hstep, h''.sim_eq_guestAt hfold' hrs]

/-- A simulation comes to the guest of its timeline. -/
theorem simFrom_replaying {l : List Moment} {rs : List Record} (ha : Applicable end_ rs) :
    ∀ {p : List Moment} {t : Nat} {fold : VirtualFold} {sim : GuestSim},
      Replaying blake3 seed l p t fold sim rs → t ≤ stop →
      simFrom blake3 stop fold sim (rs.map framed) = .ok (guestAt blake3 seed l stop) := by
  induction rs with
  | nil =>
      intro p t fold sim h ht
      exact simFrom_late hbound hstop h ht (by simp)
  | cons r rs ih =>
      intro p t fold sim h ht
      rw [List.map_cons]
      by_cases hr : stop < r.icount.toNat
      · rw [simFrom_stop hr]
        refine simFrom_late hbound hstop h ht fun q hq => ?_
        rcases List.mem_cons.mp hq with rfl | hq
        · exact hr
        · exact lt_of_lt_of_le hr ((List.pairwise_cons.mp ha.sorted).1 q hq)
      · obtain ⟨p', t', fold', sim', hmaybe, -, hawaits, h'⟩ :=
          h.maybeApply (ε := HvFault) hbound ha
        rw [simFrom_step (not_lt.mp hr) hmaybe (h'.applyRecord hbound ha hawaits)]
        exact ih ha.tail (h'.next (ε := HvFault) hbound ha hawaits).2 (not_lt.mp hr)

end Bound

end Simulation

def DhilogSegment.seed (blake3 : Bytes → Bytes32) (segment : DhilogSegment) : Bytes32 :=
  chainSeed blake3 segment.header.machineConfigHash segment.header.baseSnapshotId

/-- Any side of a segment, simulated to any icount up to its end: the timeline
of its canonical records with the side's fold in it. -/
theorem Applies.simTo {blake3 : Bytes → Bytes32} {segment : DhilogSegment} {rs : List Record}
    (ha : Applies segment rs) (defect : InjectedDefect) (side : Side) (index : UInt32) {stop : Nat}
    (hstop : stop ≤ segment.header.endIcount.toNat) :
    ReplayRenderer.simTo blake3 defect segment stop side index =
      .ok (guestAt blake3 (segment.seed blake3)
        ((defect.foldFor side index).into (rs.flatMap Record.folds)) stop) := by
  rw [ReplayRenderer.simTo, ha.records]
  exact simFrom_replaying ha.bound hstop ha.applicable (replaying_start _ rs) (Nat.zero_le _)

/-! ### The honest replay -/

section Honest

variable {blake3 : Bytes → Bytes32} {seed : Bytes32} {end_ : Nat} {segmentIndex : UInt32}

theorem exists_decodeEpoch {ε : Type} {r : Record} (h : r.payload.length = 40) :
    ∃ epoch, (r.decodeEpoch : Outcome ε _) = .ok epoch ∧ epoch.icount = r.icount.toNat := by
  obtain ⟨k, hk, hindex⟩ := exists_sitsAt_leBytes r.payload 0 8 (by omega)
  obtain ⟨c, hlen, hchain⟩ := exists_sitsAt r.payload 8 32 (by omega)
  have hpayload : r.payload = leBytes 8 k ++ (Bytes32.mk c hlen).bytes := by
    have hboth : SitsAt r.payload 0 (leBytes 8 k ++ c) := by
      rw [sitsAt_append, length_leBytes]
      exact ⟨hindex, hchain⟩
    exact hboth.eq_of_length (by simp [h, hlen])
  exact ⟨_, decodeEpoch_record hpayload hk, rfl⟩

instance (r : Record) : Decidable r.IsEpoch := inferInstanceAs (Decidable (_ ∧ _))

theorem exists_recordedEpochs {ε : Type} (rs : List Record) :
    ∃ epochs, (recordedEpochs (rs.map framed) : Outcome ε _) = .ok epochs ∧
      List.Forall₂ (fun r epoch => (r.decodeEpoch : Outcome ε _) = .ok epoch ∧
        epoch.icount = r.icount.toNat) (rs.filter fun r => r.IsEpoch) epochs := by
  induction rs with
  | nil => exact ⟨[], rfl, .nil⟩
  | cons r rs ih =>
      obtain ⟨epochs, hepochs, hrs⟩ := ih
      by_cases hr : r.IsEpoch
      · obtain ⟨epoch, hdecode, hicount⟩ := exists_decodeEpoch (ε := ε) hr.2.2
        refine ⟨epoch :: epochs, ?_, ?_⟩
        · rw [List.map_cons, recordedEpochs_epoch hr hdecode, hepochs, ok_bind, pure_eq]
        · rw [List.filter_cons_of_pos (by simpa using hr)]
          exact .cons ⟨hdecode, hicount⟩ hrs
      · refine ⟨epochs, ?_, ?_⟩
        · rw [List.map_cons, recordedEpochs_other hr, hepochs]
        · rw [List.filter_cons_of_neg (by simpa using hr)]
          exact hrs

def RecordedEpoch.event (segmentIndex : UInt32) (epoch : RecordedEpoch) : VerifyEvent :=
  .epochOk segmentIndex epoch.epochIndex epoch.icount

def RecordedEpoch.Agrees (blake3 : Bytes → Bytes32) (seed : Bytes32) (l : List Moment)
    (epoch : RecordedEpoch) : Prop :=
  chainAfter blake3 seed l (epoch.icount / mockEpochIcounts) = epoch.chain

/-- An AUX EPOCH_HASH record that cannot be read. -/
def Record.MalformedEpoch (r : Record) : Prop :=
  r.isAux = true ∧ r.kind = kindEpochHash ∧ r.payload.length ≠ 40

/-- How an honest replay of `l` along `rs` comes to an end: past the last
record, with an event for each recorded epoch; at an epoch that it does not
agree with; or at one that it cannot read. -/
inductive ReplayEnd (blake3 : Bytes → Bytes32) (seed : Bytes32) (end_ : Nat)
    (segmentIndex : UInt32) (l : List Moment) (rs : List Record) (epochs : List RecordedEpoch)
    (events : List VerifyEvent) (epochsOk : Nat) :
    Outcome HvFault HonestReplay → List VerifyEvent → Prop
  | clean {st : HonestReplay} {p : List Moment} {t : Nat}
      (replaying : Replaying blake3 seed l p t st.fold st.sim []) (le_end : t ≤ end_)
      (firstBadEpoch : st.firstBadEpoch = none)
      (wellFormed : ∀ r ∈ rs, ¬r.MalformedEpoch)
      (agrees : ∀ epoch ∈ epochs, epoch.Agrees blake3 seed l)
      (count : st.epochsOk = epochsOk + epochs.length) :
      ReplayEnd blake3 seed end_ segmentIndex l rs epochs events epochsOk (.ok st)
        (events ++ epochs.map (RecordedEpoch.event segmentIndex))
  | stopped {st : HonestReplay} {events' : List VerifyEvent} {epochIndex : UInt64}
      (firstBadEpoch : st.firstBadEpoch = some epochIndex)
      (bad : ∃ epoch ∈ epochs, ¬epoch.Agrees blake3 seed l) :
      ReplayEnd blake3 seed end_ segmentIndex l rs epochs events epochsOk (.ok st) events'
  | malformed {e : HvFault} {events' : List VerifyEvent} (bad : ∃ r ∈ rs, r.MalformedEpoch) :
      ReplayEnd blake3 seed end_ segmentIndex l rs epochs events epochsOk (.err e) events'

theorem ReplayEnd.epoch {l : List Moment} {r : Record} {rs : List Record} {epoch : RecordedEpoch}
    {epochs : List RecordedEpoch} {events events' : List VerifyEvent} {epochsOk : Nat}
    {result : Outcome HvFault HonestReplay} (hr : ¬r.MalformedEpoch)
    (hagrees : epoch.Agrees blake3 seed l)
    (h : ReplayEnd blake3 seed end_ segmentIndex l rs epochs (events ++ [epoch.event segmentIndex])
      (epochsOk + 1) result events') :
    ReplayEnd blake3 seed end_ segmentIndex l (r :: rs) (epoch :: epochs) events epochsOk result
      events' := by
  cases h with
  | clean hreplaying hle hnone hwell hall hcount =>
      rw [List.append_assoc, List.singleton_append, ← List.map_cons]
      refine .clean hreplaying hle hnone (List.forall_mem_cons.mpr ⟨hr, hwell⟩)
        (List.forall_mem_cons.mpr ⟨hagrees, hall⟩) ?_
      rw [hcount, List.length_cons, Nat.add_assoc, Nat.add_comm 1]
  | stopped hbad hex =>
      obtain ⟨e, he, hne⟩ := hex
      exact .stopped hbad ⟨e, List.mem_cons_of_mem _ he, hne⟩
  | malformed hex =>
      obtain ⟨q, hq, hbad⟩ := hex
      exact .malformed ⟨q, List.mem_cons_of_mem _ hq, hbad⟩

theorem ReplayEnd.other {l : List Moment} {r : Record} {rs : List Record}
    {epochs : List RecordedEpoch} {events events' : List VerifyEvent} {epochsOk : Nat}
    {result : Outcome HvFault HonestReplay} (hr : ¬r.MalformedEpoch)
    (h : ReplayEnd blake3 seed end_ segmentIndex l rs epochs events epochsOk result events') :
    ReplayEnd blake3 seed end_ segmentIndex l (r :: rs) epochs events epochsOk result events' := by
  cases h with
  | clean hreplaying hle hnone hwell hall hcount =>
      exact .clean hreplaying hle hnone (List.forall_mem_cons.mpr ⟨hr, hwell⟩) hall hcount
  | stopped hbad hex => exact .stopped hbad hex
  | malformed hex =>
      obtain ⟨q, hq, hbad⟩ := hex
      exact .malformed ⟨q, List.mem_cons_of_mem _ hq, hbad⟩

theorem finish_awaits {ε : Type} {fold : VirtualFold} {sim : GuestSim} {stop : Nat}
    (h : fold.Awaits (stop + 1)) :
    (fold.finish blake3 sim stop : Outcome ε _) = .ok (fold, sim) := by
  rw [VirtualFold.finish, if_neg]
  rintro ⟨hdone, hat⟩
  rcases h with h | h
  · exact absurd (hdone.symm.trans h) (by decide)
  · omega

section Step

variable (hbound : (end_ / mockEpochIcounts + 1) * mockEpochIcounts < u64Bound)
  {r : Record} {rs : List Record} (ha : Applicable end_ (r :: rs)) {l p : List Moment} {t : Nat}
  {st : HonestReplay} (h : Replaying blake3 seed l p t st.fold st.sim (r :: rs))
  (items : List RecordItem) (s : HvState (MockHypervisor blake3))

include hbound ha h

variable (segmentIndex)

theorem honestLoop_other (hr : ¬(r.isAux = true ∧ r.kind = kindEpochHash)) :
    ∃ p' st', Replaying blake3 seed l p' r.icount.toNat st'.fold st'.sim rs ∧
      st'.firstBadEpoch = st.firstBadEpoch ∧ st'.epochsOk = st.epochsOk ∧
      honestLoop end_ segmentIndex st (framed r :: items) s =
        honestLoop end_ segmentIndex st' items s := by
  obtain ⟨p', t', fold', sim', hmaybe, ht', hawaits, h'⟩ := h.maybeApply (ε := HvFault) hbound ha
  obtain ⟨hstep, hnext⟩ := h'.next (ε := HvFault) hbound ha hawaits
  have hitem : appliable (framed r) = .ok r := rfl
  refine ⟨_, { st with
    fold := fold'
    sim := guest blake3 seed (p' ++ r.folds) r.icount.toNat }, hnext, rfl, rfl, ?_⟩
  rw [honestLoop, Proc.lift_bind_apply hitem, Proc.lift_bind_apply hmaybe]
  by_cases hcanon : r.isAux = false
  · have hfold := h'.applyRecord hbound ha hawaits
    rw [applyRecord, if_pos hcanon] at hfold
    simp only [if_pos hcanon]
    rw [Proc.lift_bind_apply hfold]
  · have haux := Bool.eq_true_of_not_eq_false hcanon
    have hkind : r.kind ≠ kindEpochHash := fun hkind => hr ⟨haux, hkind⟩
    have hfolds : p' ++ r.folds = p' := by
      rw [Record.folds, if_pos haux, List.append_nil]
    simp only [if_neg hcanon, if_neg hkind, hfolds]
    by_cases hend : r.kind = kindEnd
    · -- END finishes the replay, and the fold is not due there any more
      have hend_ := ha.atEnd r (List.mem_cons_self ..) haux hend
      have hlate : fold'.Awaits (end_ + 1) := hend_ ▸ hawaits.resolve_right fun hat => hkind hat.2
      have hfinish : finishReplay blake3 end_ { st with fold := fold', sim := sim' } =
          .ok { st with fold := fold', sim := guest blake3 seed p' r.icount.toNat } := by
        rw [finishReplay, finish_awaits hlate, ok_bind]
        simp only
        rw [← hend_, hstep, ok_bind, pure_eq]
      simp only [if_pos hend]
      rw [Proc.lift_bind_apply hfinish]
    · simp only [if_neg hend]
      rw [Proc.lift_bind_apply hstep]

/-- An epoch is an event when the chain is as recorded, and stops the replay
when it is not. -/
theorem honestLoop_epoch (hr : r.IsEpoch) {epoch : RecordedEpoch}
    (hdecode : (r.decodeEpoch : Outcome HvFault _) = .ok epoch) :
    ∃ p' st' bad, Replaying blake3 seed l p' r.icount.toNat st'.fold st'.sim rs ∧
      st'.firstBadEpoch = st.firstBadEpoch ∧ st'.epochsOk = st.epochsOk + 1 ∧
      bad.firstBadEpoch = some epoch.epochIndex ∧
      honestLoop end_ segmentIndex st (framed r :: items) s =
        if chainAfter blake3 seed l (r.icount.toNat / mockEpochIcounts) = epoch.chain then
          honestLoop end_ segmentIndex st' items { s with events := s.events ++
            [.epochOk segmentIndex epoch.epochIndex r.icount.toNat] }
        else (.ok bad, s) := by
  obtain ⟨haux, hkind, hlen⟩ := hr
  obtain ⟨p', t', fold', sim', hmaybe, ht', hawaits, h'⟩ := h.maybeApply (ε := HvFault) hbound ha
  obtain ⟨hstep, hnext⟩ := h'.next (ε := HvFault) hbound ha hawaits
  have hitem : appliable (framed r) = .ok r := rfl
  have hcanon : ¬r.isAux = false := fun hcanon => absurd (haux.symm.trans hcanon) (by decide)
  rw [Record.folds, if_pos haux, List.append_nil] at hnext
  have hcompare : compareEpoch blake3 sim' r =
      .ok (guest blake3 seed p' r.icount.toNat, epoch) := by
    rw [compareEpoch, rejectIf_neg (not_not.mpr hlen), ok_bind, hdecode, ok_bind, hstep, ok_bind,
      pure_eq]
  refine ⟨p', { st with
      fold := fold'
      sim := guest blake3 seed p' r.icount.toNat
      epochsOk := st.epochsOk + 1 },
    { st with
      fold := fold'
      sim := guest blake3 seed p' r.icount.toNat
      firstBadEpoch := some epoch.epochIndex }, hnext, rfl, rfl, rfl, ?_⟩
  rw [honestLoop, Proc.lift_bind_apply hitem, Proc.lift_bind_apply hmaybe]
  simp only [if_neg hcanon, if_pos hkind]
  rw [Proc.lift_bind_apply hcompare, ← hnext.chain_eq]
  simp only
  by_cases hgood : (guest blake3 seed p' r.icount.toNat).chain = epoch.chain
  · rw [if_pos hgood, if_pos hgood, Proc.bind_apply_ok (sendEvent_apply _ s)]
  · rw [if_neg hgood, if_neg hgood]
    rfl

theorem honestLoop_malformed (hr : r.MalformedEpoch) :
    ∃ e, honestLoop end_ segmentIndex st (framed r :: items) s = (.err e, s) := by
  obtain ⟨haux, hkind, hlen⟩ := hr
  obtain ⟨p', t', fold', sim', hmaybe, -⟩ := h.maybeApply (ε := HvFault) hbound ha
  have hitem : appliable (framed r) = .ok r := rfl
  have hcanon : ¬r.isAux = false := fun hcanon => absurd (haux.symm.trans hcanon) (by decide)
  have hcompare : compareEpoch blake3 sim' r =
      .err (.unappliableRecord r.icount.toNat "malformed EPOCH_HASH payload") := by
    rw [compareEpoch, rejectIf_pos hlen, err_bind]
  refine ⟨.unappliableRecord r.icount.toNat "malformed EPOCH_HASH payload", ?_⟩
  rw [honestLoop, Proc.lift_bind_apply hitem, Proc.lift_bind_apply hmaybe]
  simp only [if_neg hcanon, if_pos hkind]
  rw [hcompare]
  rfl

end Step

variable (segmentIndex) in
/-- An honest replay is stopped by nothing but an epoch. -/
theorem honestLoop_replaying
    (hbound : (end_ / mockEpochIcounts + 1) * mockEpochIcounts < u64Bound) {l : List Moment}
    {rs : List Record} (ha : Applicable end_ rs) :
    ∀ {p : List Moment} {t : Nat} {st : HonestReplay} {epochs : List RecordedEpoch}
      (s : HvState (MockHypervisor blake3)), Replaying blake3 seed l p t st.fold st.sim rs →
      t ≤ end_ → st.firstBadEpoch = none →
      (recordedEpochs (rs.map framed) : Outcome HvFault _) = .ok epochs →
      ∃ result events, honestLoop end_ segmentIndex st (rs.map framed) s =
          (result, { s with events }) ∧
        ReplayEnd blake3 seed end_ segmentIndex l rs epochs s.events st.epochsOk result events := by
  induction rs with
  | nil =>
      intro p t st epochs s h ht hnone hepochs
      obtain rfl := Outcome.ok.inj hepochs
      have hclean : ReplayEnd blake3 seed end_ segmentIndex l [] [] s.events st.epochsOk (.ok st)
          (s.events ++ [].map (RecordedEpoch.event segmentIndex)) :=
        .clean h ht hnone (by simp) (by simp) rfl
      rw [List.map_nil, List.append_nil] at hclean
      exact ⟨.ok st, s.events, rfl, hclean⟩
  | cons r rs ih =>
      intro p t st epochs s h _ hnone hepochs
      have hr_le := ha.icount_le r (List.mem_cons_self ..)
      rw [List.map_cons] at hepochs ⊢
      by_cases hepoch : r.isAux = true ∧ r.kind = kindEpochHash
      · by_cases hlen : r.payload.length = 40
        · have hr : r.IsEpoch := ⟨hepoch.1, hepoch.2, hlen⟩
          have hwell : ¬r.MalformedEpoch := fun hbad => hbad.2.2 hlen
          obtain ⟨epoch, hdecode, hicount⟩ := exists_decodeEpoch (ε := HvFault) hlen
          rw [recordedEpochs_epoch hr hdecode] at hepochs
          obtain ⟨rest, hrest, hcons⟩ := bind_eq_ok.mp hepochs
          obtain rfl := Outcome.ok.inj hcons
          obtain ⟨p₁, st₁, bad, h₁, hbad₁, hcount₁, hbad, hloop⟩ :=
            honestLoop_epoch segmentIndex hbound ha h (rs.map framed) s hr hdecode
          have hagrees : epoch.Agrees blake3 seed l ↔
              chainAfter blake3 seed l (r.icount.toNat / mockEpochIcounts) = epoch.chain := by
            rw [RecordedEpoch.Agrees, hicount]
          rw [hloop]
          split
          · rename_i hgood
            obtain ⟨result, events, hrun, hend⟩ := ih ha.tail { s with events := s.events ++
              [.epochOk segmentIndex epoch.epochIndex r.icount.toNat] } h₁ hr_le
              (hbad₁.trans hnone) hrest
            rw [hcount₁] at hend
            refine ⟨result, events, hrun, .epoch hwell (hagrees.mpr hgood) ?_⟩
            rw [RecordedEpoch.event, hicount]
            exact hend
          · rename_i hne
            exact ⟨.ok bad, s.events, rfl,
              .stopped hbad ⟨epoch, List.mem_cons_self .., mt hagrees.mp hne⟩⟩
        · have hr : r.MalformedEpoch := ⟨hepoch.1, hepoch.2, hlen⟩
          obtain ⟨e, hloop⟩ :=
            honestLoop_malformed segmentIndex hbound ha h (rs.map framed) s hr
          exact ⟨.err e, s.events, hloop, .malformed ⟨r, List.mem_cons_self .., hr⟩⟩
      · rw [recordedEpochs_other fun hr => hepoch ⟨hr.1, hr.2.1⟩] at hepochs
        obtain ⟨p₁, st₁, h₁, hbad₁, hcount₁, hloop⟩ :=
          honestLoop_other segmentIndex hbound ha h (rs.map framed) s hepoch
        obtain ⟨result, events, hrun, hend⟩ := ih ha.tail s h₁ hr_le (hbad₁.trans hnone) hepochs
        rw [hcount₁] at hend
        exact ⟨result, events, hloop.trans hrun, hend.other fun hbad => hepoch ⟨hbad.1, hbad.2.1⟩⟩

theorem replayVerdict_stopped {h : DhilogHeader} {st : HonestReplay} {epochIndex : UInt64}
    (hbad : st.firstBadEpoch = some epochIndex) :
    replayVerdict blake3 h st = .ok (true, st) := by
  rw [replayVerdict, hbad]

/-- A replay that no epoch has stopped is judged by its end. -/
theorem replayVerdict_replaying
    (hbound : (end_ / mockEpochIcounts + 1) * mockEpochIcounts < u64Bound) {h : DhilogHeader}
    (hend : h.endIcount.toNat = end_) {l p : List Moment} {t : Nat} {st : HonestReplay}
    (hst : Replaying blake3 seed l p t st.fold st.sim []) (ht : t ≤ end_)
    (hnone : st.firstBadEpoch = none) :
    ∃ st', replayVerdict blake3 h st =
        .ok (decide ((guestAt blake3 seed l end_).chainValue blake3 ≠ h.endStateHash), st') ∧
      st'.sim = guestAt blake3 seed l end_ ∧ st'.epochsOk = st.epochsOk := by
  obtain ⟨p', t', fold', sim', hfinish, ht', hfold', h'⟩ :=
    hst.finish (ε := HvFault) hbound (le_refl _) ht (by simp)
  obtain ⟨sim'', hstep, h''⟩ := h'.stepTo (ε := HvFault) hbound ht' (le_refl _)
    (hfold'.imp id Nat.le_of_succ_le) (by simp)
  obtain rfl := h''.sim_eq_guestAt hfold' (by simp)
  refine ⟨{ st with fold := fold', sim := guestAt blake3 seed l end_ }, ?_, rfl, rfl⟩
  rw [replayVerdict, hnone, hend, finishReplay, hfinish]
  simp only [ok_bind, hstep, pure_eq, hnone]

end Honest

/-! ### A call to verify a segment -/

section Verify

variable {blake3 : Bytes → Bytes32} {segment : DhilogSegment} {rs : List Record}

/-- The timeline of a replay: the canonical records with the fold of the run in
its place. -/
def replayTimeline (defect : InjectedDefect) (side : Side) (segmentIndex : UInt32)
    (rs : List Record) : List Moment :=
  (defect.foldFor side segmentIndex).into (rs.flatMap Record.folds)

def replayHash (blake3 : Bytes → Bytes32) (defect : InjectedDefect) (segment : DhilogSegment)
    (side : Side) (segmentIndex : UInt32) (rs : List Record) : StateHash :=
  (guestAt blake3 (segment.seed blake3) (replayTimeline defect side segmentIndex rs)
    segment.header.endIcount.toNat).chainValue blake3

/-- What a call that has a run to spend comes to: the segment is verified, or
found to diverge and reported, or it has an epoch that cannot be read. -/
inductive VerifyEnd (segment : DhilogSegment) (rs : List Record) (epochs : List RecordedEpoch)
    (opts : VerifyOpts) (s : HvState (MockHypervisor blake3))
    (hlt : s.budget.used < s.budget.maxRuns) :
    Outcome HvFault SegmentOutcome × HvState (MockHypervisor blake3) → Prop
  | verified (wellFormed : ∀ r ∈ rs, ¬r.MalformedEpoch)
      (agrees : ∀ epoch ∈ epochs, epoch.Agrees blake3 (segment.seed blake3)
        (replayTimeline s.hv.defect (.replayed s.hv.runs) opts.segmentIndex rs))
      (endHash : replayHash blake3 s.hv.defect segment (.replayed s.hv.runs) opts.segmentIndex rs =
        segment.header.endStateHash) :
      VerifyEnd segment rs epochs opts s hlt
        (.ok (.verified (replayHash blake3 s.hv.defect segment (.replayed s.hv.runs)
            opts.segmentIndex rs) epochs.length),
          s.afterRun hlt (s.events ++ [.segmentStarted opts.segmentIndex] ++
            epochs.map (RecordedEpoch.event opts.segmentIndex) ++
            [.runCompleted opts.segmentIndex]))
  | diverged {events : List VerifyEvent}
      (bad : (∃ epoch ∈ epochs, ¬epoch.Agrees blake3 (segment.seed blake3)
          (replayTimeline s.hv.defect (.replayed s.hv.runs) opts.segmentIndex rs)) ∨
        replayHash blake3 s.hv.defect segment (.replayed s.hv.runs) opts.segmentIndex rs ≠
          segment.header.endStateHash) :
      VerifyEnd segment rs epochs opts s hlt
        (reportDivergence s.hv.defect segment opts s.hv.runs (rs.map framed)
          (s.afterRun hlt events))
  | malformed {e : HvFault} {events : List VerifyEvent} (bad : ∃ r ∈ rs, r.MalformedEpoch) :
      VerifyEnd segment rs epochs opts s hlt (.err e, s.afterRun hlt events)

def HonestReplay.start (blake3 : Bytes → Bytes32) (defect : InjectedDefect)
    (segment : DhilogSegment) (runIndex : Nat) (segmentIndex : UInt32) : HonestReplay :=
  { fold := defect.foldFor (.replayed runIndex) segmentIndex
    sim := GuestSim.new blake3 segment.header.machineConfigHash segment.header.baseSnapshotId
    epochsOk := 0
    firstBadEpoch := none }

theorem Applies.verifySegment (ha : Applies segment rs) {epochs : List RecordedEpoch}
    (hepochs : (recordedEpochs (rs.map framed) : Outcome HvFault _) = .ok epochs)
    (opts : VerifyOpts) (s : HvState (MockHypervisor blake3))
    (hlt : s.budget.used < s.budget.maxRuns) :
    VerifyEnd segment rs epochs opts s hlt
      (HypervisorReplay.verifySegment segment.header.baseSnapshotId segment opts s) := by
  have hbase : (rejectIf (segment.header.baseSnapshotId ≠ segment.header.baseSnapshotId)
      .baseMismatch : Outcome HvFault Unit) = .ok () := rejectIf_neg (not_not.mpr rfl)
  have hdefect : ∀ events, (s.afterRun hlt events).hv.defect = s.hv.defect := fun _ => rfl
  have hstart : Replaying blake3 (segment.seed blake3)
      (replayTimeline s.hv.defect (.replayed s.hv.runs) opts.segmentIndex rs) [] 0
      (HonestReplay.start blake3 s.hv.defect segment s.hv.runs opts.segmentIndex).fold
      (HonestReplay.start blake3 s.hv.defect segment s.hv.runs opts.segmentIndex).sim rs :=
    replaying_start _ rs
  obtain ⟨result, events, hloop, hend⟩ := honestLoop_replaying opts.segmentIndex ha.bound
    ha.applicable (s.afterRun hlt (s.events ++ [.segmentStarted opts.segmentIndex])) hstart
    (Nat.zero_le _) rfl hepochs
  replace hloop : honestLoop segment.header.endIcount.toNat opts.segmentIndex
      (HonestReplay.start blake3 s.hv.defect segment s.hv.runs opts.segmentIndex) (rs.map framed)
      (s.afterRun hlt (s.events ++ [.segmentStarted opts.segmentIndex])) =
    (result, s.afterRun hlt events) := hloop
  change VerifyEnd segment rs epochs opts s hlt
    (MockHypervisor.verifySegment segment.header.baseSnapshotId segment opts s)
  rw [MockHypervisor.verifySegment]
  simp only
  rw [Proc.lift_bind_apply hbase, Proc.bind_apply_ok (spendRun_of_lt hlt)]
  simp only
  rw [Proc.bind_apply_ok (sendEvent_afterRun _), Proc.bind_apply_ok (Proc.gets_apply _ _),
    hdefect, Proc.lift_bind_apply ha.records, ← HonestReplay.start]
  cases hend with
  | malformed hbad =>
      rw [Proc.bind_apply_err hloop]
      exact .malformed hbad
  | stopped hfirst hbad =>
      rw [Proc.bind_apply_ok hloop, Proc.lift_bind_apply (replayVerdict_stopped hfirst)]
      simp only
      rw [Proc.bind_apply_ok (sendEvent_afterRun _), if_pos trivial]
      exact .diverged (.inl hbad)
  | clean hreplaying hle hnone hwell hall hcount =>
      obtain ⟨st', hverdict, hsim, hok⟩ :=
        replayVerdict_replaying ha.bound rfl hreplaying hle hnone
      replace hverdict : replayVerdict blake3 segment.header _ =
          .ok (decide (replayHash blake3 s.hv.defect segment (.replayed s.hv.runs)
            opts.segmentIndex rs ≠ segment.header.endStateHash), st') := hverdict
      by_cases hhash : replayHash blake3 s.hv.defect segment (.replayed s.hv.runs)
          opts.segmentIndex rs = segment.header.endStateHash
      · rw [decide_eq_false (not_not.mpr hhash)] at hverdict
        rw [Proc.bind_apply_ok hloop, Proc.lift_bind_apply hverdict]
        simp only
        rw [Proc.bind_apply_ok (sendEvent_afterRun _), if_neg Bool.false_ne_true, Proc.pure_apply,
          hsim, hok, hcount, HonestReplay.start, Nat.zero_add]
        exact .verified hwell hall hhash
      · rw [decide_eq_true hhash] at hverdict
        rw [Proc.bind_apply_ok hloop, Proc.lift_bind_apply hverdict]
        simp only
        rw [Proc.bind_apply_ok (sendEvent_afterRun _), if_pos trivial]
        exact .diverged (.inr hhash)

end Verify

end ReplayRenderer
