import ReplayRenderer.Lib.Sort
import ReplayRenderer.MockHv.Timeline
import ReplayRenderer.MockHv.Writer

/-!
The order in which the writer emits. The sort keeps every part of the list
that was already in order, so the scripted events come out as they were
given; the rank puts an epoch boundary before the skew at its icount, and
the skew before the events there. Read for its folds, the order is the
script's timeline with the skew folded in.
-/

namespace ReplayRenderer

open Lib Lib.Outcome

instance : Std.Total Scheduled.le where
  total a b := by
    unfold Scheduled.le
    omega

instance : IsTrans Scheduled Scheduled.le where
  trans a b c hab hbc := by
    unfold Scheduled.le at *
    omega

theorem Scheduled.le.icount_le {a b : Scheduled} (h : a.le b) : a.icount ≤ b.icount := by
  unfold Scheduled.le at h
  omega

/-! ### What an emission folds -/

/-- What a scripted event folds into the register, and when. -/
def ScriptEvent.moment (ev : ScriptEvent) : Moment :=
  (ev.icount.toNat, ev.event.kind :: ev.event.payloadBytes)

def SegmentSpec.timeline (spec : SegmentSpec) : List Moment :=
  spec.events.map ScriptEvent.moment

def Scheduled.folds (e : Scheduled) : List Moment :=
  match e.emission with
  | .skew => [(e.icount, skewFold)]
  | .canonical ev => [(e.icount, ev.kind :: ev.payloadBytes)]
  | _ => []

theorem Scheduled.fst_of_mem_folds {e : Scheduled} {m : Moment} (h : m ∈ e.folds) :
    m.1 = e.icount := by
  unfold Scheduled.folds at h
  split at h <;> simp at h <;> rw [h]

def ofRank (r : Nat) (S : List Scheduled) : List Scheduled :=
  S.filter fun e => e.emission.rank = r

theorem ofRank_append {r : Nat} {S S' : List Scheduled} :
    ofRank r (S ++ S') = ofRank r S ++ ofRank r S' := List.filter_append ..

/-- Taking a rank out of a list of one rank takes all or nothing. -/
theorem ofRank_of_forall {q r : Nat} {S : List Scheduled}
    (h : ∀ e ∈ S, e.emission.rank = q) : ofRank r S = if q = r then S else [] := by
  split
  · rename_i hqr
    apply List.filter_eq_self.mpr
    intro e he
    rw [h e he, hqr, decide_eq_true rfl]
  · rename_i hqr
    apply List.filter_eq_nil_iff.mpr
    intro e he hrank
    exact hqr ((h e he).symm.trans (of_decide_eq_true hrank))

/-- Without the skew only the events fold. -/
theorem flatMap_folds_ofRank {S : List Scheduled} (h : ∀ e ∈ S, e.emission.rank ≠ 1) :
    S.flatMap Scheduled.folds = (ofRank 2 S).flatMap Scheduled.folds := by
  induction S with
  | nil => rfl
  | cons e S ih =>
      have htail := ih fun e' he' => h e' (List.mem_cons_of_mem e he')
      have hhead := h e (List.mem_cons_self ..)
      by_cases hrank : e.emission.rank = 2
      · have hcons : ofRank 2 (e :: S) = e :: ofRank 2 S :=
          List.filter_cons_of_pos (decide_eq_true hrank)
        rw [hcons, List.flatMap_cons, List.flatMap_cons, htail]
      · have hcons : ofRank 2 (e :: S) = ofRank 2 S :=
          List.filter_cons_of_neg (mt of_decide_eq_true hrank)
        have hnil : e.folds = [] := by
          unfold Scheduled.folds
          cases hem : e.emission with
          | canonical ev => exact absurd (hem ▸ rfl) hrank
          | skew => exact absurd (hem ▸ rfl) hhead
          | epochHash k => rfl
          | frameMark i => rfl
          | end_ => rfl
        rw [hcons, List.flatMap_cons, hnil, List.nil_append, htail]

theorem flatMap_folds_eventEmissions (spec : SegmentSpec) :
    spec.eventEmissions.flatMap Scheduled.folds = spec.timeline := by
  have hfolds : ∀ l : List (ScriptEvent × Nat),
      (l.map fun p => (⟨p.1.icount.toNat, p.2, .canonical p.1.event⟩ : Scheduled)).flatMap
          Scheduled.folds = (l.map Prod.fst).map ScriptEvent.moment := by
    intro l
    induction l with
    | nil => rfl
    | cons p l ih =>
        rw [List.map_cons, List.flatMap_cons, ih]
        rfl
  have h := hfolds spec.events.zipIdx
  rwa [List.zipIdx_map_fst] at h

/-! ### The epoch boundaries -/

def epochSchedule (n : Nat) : List Scheduled :=
  (List.range' 1 n).map fun k =>
    { icount := k * mockEpochIcounts, tie := 0, emission := .epochHash k }

theorem epochLoopEmissions_eq_ok {ε : Type} {endIcount fuel k : Nat} {L : List Scheduled}
    (hfuel : endIcount / mockEpochIcounts + 1 < k + fuel)
    (hk : k ≤ endIcount / mockEpochIcounts + 1) :
    (epochLoopEmissions endIcount fuel k : Outcome ε _) = .ok L ↔
      L = (List.range' k (endIcount / mockEpochIcounts + 1 - k)).map (fun k =>
          { icount := k * mockEpochIcounts, tie := 0, emission := .epochHash k }) ∧
        (endIcount / mockEpochIcounts + 1) * mockEpochIcounts < u64Bound := by
  induction fuel generalizing k L with
  | zero => omega
  | succ fuel ih =>
      have hlast : k * mockEpochIcounts ≤ (endIcount / mockEpochIcounts + 1) * mockEpochIcounts :=
        Nat.mul_le_mul_right _ hk
      rw [epochLoopEmissions, bind_eq_ok]
      by_cases hle : k * mockEpochIcounts ≤ endIcount
      · have hk' : k ≤ endIcount / mockEpochIcounts :=
          (Nat.le_div_iff_mul_le (by decide)).mpr hle
        have hrest := @ih (k + 1)
        rw [show endIcount / mockEpochIcounts + 1 - k =
            endIcount / mockEpochIcounts + 1 - (k + 1) + 1 by omega,
          List.range'_succ, List.map_cons]
        constructor
        · rintro ⟨boundary, hmul, h⟩
          obtain ⟨hlt, rfl⟩ := u64Mul_eq_ok.mp hmul
          rw [if_pos hle] at h
          obtain ⟨rest, hloop, hL⟩ := bind_eq_ok.mp h
          obtain ⟨rfl, hbound⟩ := (hrest (by omega) (by omega)).mp hloop
          exact ⟨(Outcome.ok.inj hL).symm, hbound⟩
        · rintro ⟨rfl, hbound⟩
          refine ⟨_, u64Mul_of_lt (by omega), ?_⟩
          rw [if_pos hle, (hrest (by omega) (by omega)).mpr ⟨rfl, hbound⟩, ok_bind, pure_eq]
      · obtain rfl : k = endIcount / mockEpochIcounts + 1 := by
          have hdiv : endIcount / mockEpochIcounts < k :=
            (Nat.div_lt_iff_lt_mul (by decide)).mpr (by omega)
          omega
        rw [Nat.sub_self]
        constructor
        · rintro ⟨boundary, hmul, h⟩
          obtain ⟨hlt, rfl⟩ := u64Mul_eq_ok.mp hmul
          rw [if_neg hle] at h
          exact ⟨(Outcome.ok.inj h).symm, hlt⟩
        · rintro ⟨rfl, hbound⟩
          refine ⟨_, u64Mul_of_lt hbound, ?_⟩
          rw [if_neg hle]
          rfl

/-! ### The merged order -/

def SegmentSpec.epochCount (spec : SegmentSpec) : Nat :=
  if spec.omitEpochHashes then 0 else spec.endIcount.toNat / mockEpochIcounts

def SegmentSpec.skewSchedule (spec : SegmentSpec) : List Scheduled :=
  match spec.skewAt with
  | none => []
  | some at_ => [{ icount := at_.toNat, tie := 0, emission := .skew }]

def SegmentSpec.merged (spec : SegmentSpec) : List Scheduled :=
  epochSchedule spec.epochCount ++ spec.skewSchedule ++ spec.eventEmissions
    ++ spec.frameEmissions ++ [spec.endEmission]

def SegmentSpec.order (spec : SegmentSpec) : List Scheduled :=
  spec.merged.insertionSort Scheduled.le

/-- The boundary after the end of a segment is no overflow. -/
def SegmentSpec.Bounded (spec : SegmentSpec) : Prop :=
  (spec.endIcount.toNat / mockEpochIcounts + 1) * mockEpochIcounts < u64Bound

theorem epochEmissions_eq_ok {ε : Type} {spec : SegmentSpec} {L : List Scheduled} :
    (spec.epochEmissions : Outcome ε _) = .ok L ↔
      L = epochSchedule spec.epochCount ∧ (spec.omitEpochHashes = false → spec.Bounded) := by
  rw [SegmentSpec.epochEmissions, SegmentSpec.epochCount]
  cases homit : spec.omitEpochHashes with
  | true => simp [epochSchedule, eq_comm]
  | false =>
      rw [if_neg Bool.false_ne_true, if_neg Bool.false_ne_true,
        epochLoopEmissions_eq_ok (by omega) (Nat.le_add_left 1 _), Nat.add_sub_cancel]
      exact and_congr_right fun _ => ⟨fun hbound _ => hbound, fun h => h rfl⟩

theorem skewEmissions_eq_ok {ε : Type} {spec : SegmentSpec} {L : List Scheduled} :
    (spec.skewEmissions : Outcome ε _) = .ok L ↔
      L = spec.skewSchedule ∧ ∀ at_ ∈ spec.skewAt, at_ ≤ spec.endIcount := by
  rw [SegmentSpec.skewEmissions, SegmentSpec.skewSchedule]
  cases spec.skewAt with
  | none => simp [eq_comm]
  | some at_ =>
      constructor
      · intro h
        obtain ⟨_, hle, hL⟩ := bind_eq_ok.mp h
        refine ⟨(Outcome.ok.inj hL).symm, ?_⟩
        rintro _ ⟨⟩
        exact require_eq_ok.mp hle
      · rintro ⟨rfl, hle⟩
        exact bind_eq_ok.mpr ⟨(), require_pos (hle at_ rfl), rfl⟩

theorem emissions_eq_ok {ε : Type} {spec : SegmentSpec} {S : List Scheduled} :
    (spec.emissions : Outcome ε _) = .ok S ↔
      S = spec.order ∧ (∀ at_ ∈ spec.skewAt, at_ ≤ spec.endIcount) ∧
        (spec.omitEpochHashes = false → spec.Bounded) := by
  rw [SegmentSpec.emissions]
  constructor
  · intro h
    obtain ⟨epochs, hepochs, h⟩ := bind_eq_ok.mp h
    obtain ⟨skew, hskew, hS⟩ := bind_eq_ok.mp h
    obtain ⟨rfl, hbound⟩ := epochEmissions_eq_ok.mp hepochs
    obtain ⟨rfl, hle⟩ := skewEmissions_eq_ok.mp hskew
    exact ⟨(Outcome.ok.inj hS).symm, hle, hbound⟩
  · rintro ⟨rfl, hle, hbound⟩
    rw [epochEmissions_eq_ok.mpr ⟨rfl, hbound⟩, ok_bind, skewEmissions_eq_ok.mpr ⟨rfl, hle⟩]
    rfl

/-- What the writer asserts of its script, and the boundary after its end. -/
structure Recordable (spec : SegmentSpec) : Prop where
  sorted : spec.events.Pairwise fun a b => a.icount ≤ b.icount
  events_le : ∀ ev ∈ spec.events, ev.icount ≤ spec.endIcount
  frames_le : ∀ fm ∈ spec.frameMarks, fm.icount ≤ spec.endIcount
  skew_le : ∀ at_ ∈ spec.skewAt, at_ ≤ spec.endIcount
  bound : spec.Bounded

theorem Recordable.timed {spec : SegmentSpec} (hv : Recordable spec) : Timed spec.timeline :=
  List.pairwise_map.mpr (hv.sorted.imp fun h => UInt64.le_iff_toNat_le.mp h)

section Order

variable {spec : SegmentSpec}

theorem mem_skewSchedule {e : Scheduled} (h : e ∈ spec.skewSchedule) :
    ∃ at_ ∈ spec.skewAt, e = { icount := at_.toNat, tie := 0, emission := .skew } := by
  unfold SegmentSpec.skewSchedule at h
  split at h
  · cases h
  · rename_i at_ hskew
    exact ⟨at_, hskew, List.mem_singleton.mp h⟩

theorem mem_order {e : Scheduled} :
    e ∈ spec.order ↔
      e ∈ epochSchedule spec.epochCount ∨ e ∈ spec.skewSchedule ∨
        e ∈ spec.eventEmissions ∨ e ∈ spec.frameEmissions ∨ e = spec.endEmission := by
  simp only [SegmentSpec.order, List.mem_insertionSort, SegmentSpec.merged, List.mem_append,
    List.mem_singleton, or_assoc]

theorem pairwise_order (spec : SegmentSpec) : spec.order.Pairwise Scheduled.le :=
  List.pairwise_insertionSort _ _

theorem mem_eventEmissions {e : Scheduled} (h : e ∈ spec.eventEmissions) :
    ∃ ev ∈ spec.events, e.icount = ev.icount.toNat ∧ e.emission = .canonical ev.event := by
  obtain ⟨⟨ev, i⟩, hmem, rfl⟩ := List.mem_map.mp h
  exact ⟨ev, List.fst_mem_of_mem_zipIdx hmem, rfl, rfl⟩

theorem mem_frameEmissions {e : Scheduled} (h : e ∈ spec.frameEmissions) :
    ∃ fm ∈ spec.frameMarks, e.icount = fm.icount.toNat ∧
      e.emission = .frameMark fm.frameIndex := by
  obtain ⟨⟨fm, i⟩, hmem, rfl⟩ := List.mem_map.mp h
  exact ⟨fm, List.fst_mem_of_mem_zipIdx hmem, rfl, rfl⟩

theorem mem_epochSchedule {e : Scheduled} {n : Nat} (h : e ∈ epochSchedule n) :
    ∃ k, 1 ≤ k ∧ k ≤ n ∧ e = ⟨k * mockEpochIcounts, 0, .epochHash k⟩ := by
  obtain ⟨k, hk, rfl⟩ := List.mem_map.mp h
  have hk := List.mem_range'_1.mp hk
  exact ⟨k, hk.1, by omega, rfl⟩

theorem epochCount_le (spec : SegmentSpec) :
    spec.epochCount ≤ spec.endIcount.toNat / mockEpochIcounts := by
  unfold SegmentSpec.epochCount
  split
  · exact Nat.zero_le _
  · exact le_refl _

theorem icount_le_of_mem_order (hv : Recordable spec) {e : Scheduled} (h : e ∈ spec.order) :
    e.icount ≤ spec.endIcount.toNat := by
  rcases mem_order.mp h with he | he | he | he | rfl
  · obtain ⟨k, -, hk, rfl⟩ := mem_epochSchedule he
    exact (Nat.le_div_iff_mul_le (by decide)).mp (hk.trans (epochCount_le spec))
  · obtain ⟨at_, hskew, rfl⟩ := mem_skewSchedule he
    exact UInt64.le_iff_toNat_le.mp (hv.skew_le at_ hskew)
  · obtain ⟨ev, hev, heq, -⟩ := mem_eventEmissions he
    rw [heq]
    exact UInt64.le_iff_toNat_le.mp (hv.events_le ev hev)
  · obtain ⟨fm, hfm, heq, -⟩ := mem_frameEmissions he
    rw [heq]
    exact UInt64.le_iff_toNat_le.mp (hv.frames_le fm hfm)
  · exact le_refl _

theorem icount_of_epochHash {e : Scheduled} {k : Nat} (h : e ∈ spec.order)
    (hk : e.emission = .epochHash k) : e.icount = k * mockEpochIcounts := by
  rcases mem_order.mp h with he | he | he | he | rfl
  · obtain ⟨j, -, -, rfl⟩ := mem_epochSchedule he
    obtain rfl : j = k := by simpa using hk
    rfl
  · obtain ⟨at_, -, rfl⟩ := mem_skewSchedule he
    simp at hk
  · obtain ⟨ev, -, -, heq⟩ := mem_eventEmissions he
    simp [heq] at hk
  · obtain ⟨fm, -, -, heq⟩ := mem_frameEmissions he
    simp [heq] at hk
  · simp [SegmentSpec.endEmission] at hk

theorem ofRank_merged (r : Nat) :
    ofRank r spec.merged =
      (if 0 = r then epochSchedule spec.epochCount else [])
        ++ (if 1 = r then spec.skewSchedule else [])
        ++ (if 2 = r then spec.eventEmissions else [])
        ++ (if 3 = r then spec.frameEmissions else [])
        ++ (if 4 = r then [spec.endEmission] else []) := by
  have hepochs : ∀ e ∈ epochSchedule spec.epochCount, e.emission.rank = 0 := by
    intro e he
    obtain ⟨k, -, -, rfl⟩ := mem_epochSchedule he
    rfl
  have hskew : ∀ e ∈ spec.skewSchedule, e.emission.rank = 1 := by
    intro e he
    obtain ⟨at_, -, rfl⟩ := mem_skewSchedule he
    rfl
  have hevents : ∀ e ∈ spec.eventEmissions, e.emission.rank = 2 := by
    intro e he
    obtain ⟨ev, -, -, heq⟩ := mem_eventEmissions he
    rw [heq]
    rfl
  have hframes : ∀ e ∈ spec.frameEmissions, e.emission.rank = 3 := by
    intro e he
    obtain ⟨fm, -, -, heq⟩ := mem_frameEmissions he
    rw [heq]
    rfl
  have hend : ∀ e ∈ [spec.endEmission], e.emission.rank = 4 := by
    intro e he
    obtain rfl := List.mem_singleton.mp he
    rfl
  rw [SegmentSpec.merged, ofRank_append, ofRank_append, ofRank_append, ofRank_append,
    ofRank_of_forall hepochs, ofRank_of_forall hskew, ofRank_of_forall hevents,
    ofRank_of_forall hframes, ofRank_of_forall hend]

theorem ofRank_order (r : Nat) :
    ofRank r spec.order = (ofRank r spec.merged).insertionSort Scheduled.le :=
  filter_insertionSort _ _

theorem ofRank_zero_order : ofRank 0 spec.order = epochSchedule spec.epochCount := by
  have hmerged : ofRank 0 spec.merged = epochSchedule spec.epochCount := by
    simp [ofRank_merged]
  have hsorted : (epochSchedule spec.epochCount).Pairwise Scheduled.le := by
    rw [epochSchedule, List.pairwise_map]
    refine (List.pairwise_lt_range' ..).imp fun {j k} hjk => ?_
    exact .inl (Nat.mul_lt_mul_of_pos_right hjk (by decide))
  rw [ofRank_order, hmerged, hsorted.insertionSort_eq]

theorem ofRank_one_order (spec : SegmentSpec) : ofRank 1 spec.order = spec.skewSchedule := by
  have hmerged : ofRank 1 spec.merged = spec.skewSchedule := by simp [ofRank_merged]
  rw [ofRank_order, hmerged, SegmentSpec.skewSchedule]
  cases spec.skewAt with
  | none => rfl
  | some at_ => rfl

theorem ofRank_two_order (hv : Recordable spec) : ofRank 2 spec.order = spec.eventEmissions := by
  have hmerged : ofRank 2 spec.merged = spec.eventEmissions := by simp [ofRank_merged]
  have hsorted : spec.eventEmissions.Pairwise Scheduled.le := by
    rw [SegmentSpec.eventEmissions, List.pairwise_map, List.pairwise_iff_getElem]
    intro i j hi hj hij
    have hle := UInt64.le_iff_toNat_le.mp (List.pairwise_iff_getElem.mp hv.sorted i j
      (by simpa using hi) (by simpa using hj) hij)
    rw [List.getElem_zipIdx, List.getElem_zipIdx]
    refine (lt_or_eq_of_le hle).imp id fun heq => ⟨heq, .inr ⟨rfl, ?_⟩⟩
    exact Nat.add_le_add_left hij.le 0
  rw [ofRank_order, hmerged, hsorted.insertionSort_eq]

/-- The frame marks by icount, those of one icount as they were given. -/
def SegmentSpec.sortedMarks (spec : SegmentSpec) : List FrameMark :=
  spec.frameMarks.insertionSort fun a b => a.icount ≤ b.icount

/-- The frame marks come out sorted by their icounts alone. -/
theorem exists_ofRank_three_order (spec : SegmentSpec) :
    ∃ marks : List (FrameMark × Nat), marks.map Prod.fst = spec.sortedMarks ∧
      ofRank 3 spec.order = marks.map fun p =>
        ⟨p.1.icount.toNat, p.2, .frameMark p.1.frameIndex⟩ := by
  have hmerged : ofRank 3 spec.merged = spec.frameEmissions := by simp [ofRank_merged]
  -- a mark is compared with later ones only, whose ties are larger
  have hties : spec.frameEmissions.Pairwise fun a b => (a.le b ↔ a.icount ≤ b.icount) := by
    rw [SegmentSpec.frameEmissions, List.pairwise_map, List.pairwise_iff_getElem]
    intro i j hi hj hij
    rw [List.getElem_zipIdx, List.getElem_zipIdx]
    unfold Scheduled.le
    simp only [Emission.rank, true_and, lt_irrefl, false_or]
    rw [and_iff_left (Nat.add_le_add_left hij.le 0)]
    exact le_iff_lt_or_eq.symm
  refine ⟨spec.frameMarks.zipIdx.insertionSort fun p q => p.1.icount ≤ q.1.icount, ?_, ?_⟩
  · rw [SegmentSpec.sortedMarks,
      List.map_insertionSort _ (fun a b : FrameMark => a.icount ≤ b.icount) _ _
        fun p _ q _ => Iff.rfl, List.zipIdx_map_fst]
  · rw [ofRank_order, hmerged, insertionSort_congr hties]
    exact (List.map_insertionSort (fun p q : FrameMark × Nat => p.1.icount ≤ q.1.icount)
      (fun a b : Scheduled => a.icount ≤ b.icount) _ _
      fun p _ q _ => UInt64.le_iff_toNat_le).symm

theorem ofRank_four_order (spec : SegmentSpec) : ofRank 4 spec.order = [spec.endEmission] := by
  have hmerged : ofRank 4 spec.merged = [spec.endEmission] := by simp [ofRank_merged]
  rw [ofRank_order, hmerged]
  rfl

/-- What is of a rank that occurs once in a list does not occur around it. -/
theorem rank_ne_of_ofRank_eq_singleton {r : Nat} {e e' : Scheduled} {S₁ S₂ : List Scheduled}
    (hrank : e.emission.rank = r) (h : ofRank r (S₁ ++ e :: S₂) = [e'])
    {x : Scheduled} (hx : x ∈ S₁ ++ S₂) : x.emission.rank ≠ r := by
  have hcons : ofRank r (e :: S₂) = e :: ofRank r S₂ :=
    List.filter_cons_of_pos (decide_eq_true hrank)
  have hlen := congrArg List.length h
  rw [ofRank_append, hcons, List.length_append, List.length_cons, List.length_singleton] at hlen
  have h₁ : ofRank r S₁ = [] := List.length_eq_zero_iff.mp (by omega)
  have h₂ : ofRank r S₂ = [] := List.length_eq_zero_iff.mp (by omega)
  intro hxr
  have hmem : x ∈ ofRank r (S₁ ++ S₂) := List.mem_filter.mpr ⟨hx, decide_eq_true hxr⟩
  rw [ofRank_append, h₁, h₂] at hmem
  exact absurd hmem (List.not_mem_nil)

/-- The skew is there, after what comes before it and ahead of the rest. -/
theorem exists_order_split {at_ : UInt64} (hskew : spec.skewAt = some at_) :
    ∃ S₁ S₂, spec.order = S₁ ++ ⟨at_.toNat, 0, .skew⟩ :: S₂ ∧
      (∀ e ∈ S₁ ++ S₂, e.emission.rank ≠ 1) ∧
      (∀ e ∈ S₁, e.emission.rank = 2 → e.icount < at_.toNat) ∧
      ∀ e ∈ S₂, at_.toNat ≤ e.icount := by
  have hschedule : spec.skewSchedule = [⟨at_.toNat, 0, .skew⟩] := by
    rw [SegmentSpec.skewSchedule, hskew]
  have hmem : ⟨at_.toNat, 0, .skew⟩ ∈ spec.order :=
    mem_order.mpr (.inr (.inl (by rw [hschedule]; exact List.mem_singleton_self _)))
  obtain ⟨S₁, S₂, hsplit⟩ := List.append_of_mem hmem
  have hpair := pairwise_order spec
  have hone := (ofRank_one_order spec).trans hschedule
  rw [hsplit] at hpair hone
  obtain ⟨-, hskews, hcross⟩ := List.pairwise_append.mp hpair
  have hrank : (⟨at_.toNat, 0, .skew⟩ : Scheduled).emission.rank = 1 := rfl
  refine ⟨S₁, S₂, hsplit, fun e he => rank_ne_of_ofRank_eq_singleton hrank hone he, ?_, ?_⟩
  · intro e he hcanon
    have hle : e.icount < at_.toNat ∨ e.icount = at_.toNat ∧
        (e.emission.rank < 1 ∨ e.emission.rank = 1 ∧ e.tie ≤ 0) :=
      hcross e he _ (List.mem_cons_self ..)
    omega
  · intro e he
    have hle : at_.toNat < e.icount ∨ at_.toNat = e.icount ∧ _ :=
      (List.pairwise_cons.mp hskews).1 e he
    omega

theorem exists_order_end (hv : Recordable spec) :
    ∃ S, spec.order = S ++ [spec.endEmission] ∧ ∀ e ∈ S, e.emission.rank ≠ 4 := by
  have hmem : spec.endEmission ∈ spec.order :=
    mem_order.mpr (.inr (.inr (.inr (.inr rfl))))
  obtain ⟨S₁, S₂, hsplit⟩ := List.append_of_mem hmem
  have hfour := ofRank_four_order spec
  have hpair := pairwise_order spec
  rw [hsplit] at hfour hpair
  have hrank : spec.endEmission.emission.rank = 4 := rfl
  have hne : ∀ e ∈ S₁ ++ S₂, e.emission.rank ≠ 4 := fun e he =>
    rank_ne_of_ofRank_eq_singleton hrank hfour he
  have hnil : S₂ = [] := by
    apply List.eq_nil_iff_forall_not_mem.mpr
    intro e he
    have hle := (List.pairwise_cons.mp (List.pairwise_append.mp hpair).2.1).1 e he
    have hmem : e ∈ spec.order := by
      rw [hsplit]
      exact List.mem_append_right _ (List.mem_cons_of_mem _ he)
    have hend := icount_le_of_mem_order hv hmem
    have hlt : e.emission.rank ≤ 4 := by
      cases e.emission <;> simp [Emission.rank]
    have hne := hne e (List.mem_append_right _ he)
    have hicount : spec.endEmission.icount = spec.endIcount.toNat := rfl
    unfold Scheduled.le at hle
    rw [hrank, hicount] at hle
    omega
  subst hnil
  exact ⟨S₁, hsplit, fun e he => hne e (List.mem_append_left _ he)⟩

theorem eq_nil_of_end (hv : Recordable spec) {e : Scheduled} {S₁ S₂ : List Scheduled}
    (hsplit : spec.order = S₁ ++ e :: S₂) (hem : e.emission = .end_) :
    S₂ = [] := by
  obtain ⟨S, hS, hrank⟩ := exists_order_end hv
  rcases List.eq_nil_or_concat S₂ with hnil | ⟨S₃, last, rfl⟩
  · exact hnil
  · have heq : S = S₁ ++ e :: S₃ := by
      have h : S ++ [spec.endEmission] = (S₁ ++ e :: S₃) ++ [last] := by
        rw [← hS, hsplit]
        simp
      exact (List.append_inj' h rfl).1
    exact absurd (by rw [hem]; rfl) (hrank e (by simp [heq]))

def SegmentSpec.recorded (spec : SegmentSpec) (at_ : UInt64) : List Moment :=
  withFold at_.toNat skewFold spec.timeline

/-- The timeline of the recording: the script, with the skew it has. -/
def SegmentSpec.recording (spec : SegmentSpec) : List Moment :=
  match spec.skewAt with
  | none => spec.timeline
  | some at_ => spec.recorded at_

theorem recording_of_skew {at_ : UInt64} (hskew : spec.skewAt = some at_) :
    spec.recording = spec.recorded at_ := by
  rw [SegmentSpec.recording, hskew]

/-- Read for its folds, the order is the recording. -/
theorem flatMap_folds_order (hv : Recordable spec) :
    spec.order.flatMap Scheduled.folds = spec.recording := by
  rw [SegmentSpec.recording]
  cases hskew : spec.skewAt with
  | none =>
      have hrank : ∀ e ∈ spec.order, e.emission.rank ≠ 1 := by
        intro e he hone
        have hmem : e ∈ ofRank 1 spec.order := List.mem_filter.mpr ⟨he, decide_eq_true hone⟩
        rw [ofRank_one_order, SegmentSpec.skewSchedule, hskew] at hmem
        cases hmem
      rw [flatMap_folds_ofRank hrank, ofRank_two_order hv, flatMap_folds_eventEmissions]
  | some at_ =>
      obtain ⟨S₁, S₂, hsplit, hrank, hlt, hge⟩ := exists_order_split hskew
      have hmem : ∀ {S : List Scheduled} {m : Moment},
          m ∈ (ofRank 2 S).flatMap Scheduled.folds →
            ∃ e ∈ S, e.emission.rank = 2 ∧ m.1 = e.icount := by
        intro S m hm
        obtain ⟨e, he, hfold⟩ := List.mem_flatMap.mp hm
        obtain ⟨heS, hrank⟩ := List.mem_filter.mp he
        exact ⟨e, heS, of_decide_eq_true hrank, Scheduled.fst_of_mem_folds hfold⟩
      have htimeline : spec.timeline =
          (ofRank 2 S₁).flatMap Scheduled.folds ++ (ofRank 2 S₂).flatMap Scheduled.folds := by
        have hcons : ofRank 2 (⟨at_.toNat, 0, .skew⟩ :: S₂) = ofRank 2 S₂ :=
          List.filter_cons_of_neg (by simp [Emission.rank])
        rw [← flatMap_folds_eventEmissions, ← ofRank_two_order hv, hsplit, ofRank_append, hcons,
          List.flatMap_append]
      rw [hsplit, List.flatMap_append, List.flatMap_cons,
        flatMap_folds_ofRank fun e he => hrank e (List.mem_append_left _ he),
        flatMap_folds_ofRank fun e he => hrank e (List.mem_append_right _ he)]
      simp only [SegmentSpec.recorded, htimeline]
      rw [withFold_append_of_lt, withFold_of_le]
      · rfl
      · intro m hm
        obtain ⟨e, he, -, heq⟩ := hmem hm
        rw [heq]
        exact hge e he
      · intro m hm
        obtain ⟨e, he, hrank, heq⟩ := hmem hm
        rw [heq]
        exact hlt e he hrank

end Order

end ReplayRenderer
