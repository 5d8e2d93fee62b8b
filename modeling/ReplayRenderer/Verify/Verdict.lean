import ReplayRenderer.Verify.Safety

/-!
The two replays of a segment. The comparing loop of `verify_segment` and the
simulation behind `run_to_icount` go through the same timeline, so they agree
on the end hash; and what the first compares on its way decides its verdict.
-/

namespace ReplayRenderer

open Lib Lib.Outcome

def InjectedDefect.ReplaysClean : InjectedDefect → Prop
  | .none | .recordedSkew _ _ => True
  | .replayNondet _ _ _ => False

theorem InjectedDefect.ReplaysClean.foldFor {defect : InjectedDefect} (h : defect.ReplaysClean)
    (run : Nat) (index : UInt32) : defect.foldFor (.replayed run) index = VirtualFold.none := by
  cases defect with
  | none => rfl
  | recordedSkew segment atIcount => rfl
  | replayNondet segment atIcount flakePeriod => exact absurd h id

/-- The recorded chain of an epoch record is the one that a simulation to its
icount comes to. -/
def ReplaysEpoch (blake3 : Bytes → Bytes32) (defect : InjectedDefect) (segment : DhilogSegment)
    (runIndex : Nat) (segmentIndex : UInt32) (r : Record) : Prop :=
  ∃ epoch sim, (r.decodeEpoch : Outcome HvFault _) = .ok epoch ∧
    simTo blake3 defect segment r.icount.toNat (.replayed runIndex) segmentIndex = .ok sim ∧
    sim.chain = epoch.chain

section Verdict

variable {blake3 : Bytes → Bytes32} {segment : DhilogSegment} {rs : List Record}

theorem replaysEpoch_iff (ha : Applies segment rs) (defect : InjectedDefect)
    (runIndex : Nat) (segmentIndex : UInt32) {r : Record} (hr : r ∈ rs) {epoch : RecordedEpoch}
    (hdecode : (r.decodeEpoch : Outcome HvFault _) = .ok epoch)
    (hicount : epoch.icount = r.icount.toNat) :
    ReplaysEpoch blake3 defect segment runIndex segmentIndex r ↔
      epoch.Agrees blake3 (segment.seed blake3)
        (replayTimeline defect (.replayed runIndex) segmentIndex rs) := by
  have hsim : simTo blake3 defect segment r.icount.toNat (.replayed runIndex) segmentIndex = .ok _ :=
    ha.simTo defect (.replayed runIndex) segmentIndex (ha.applicable.icount_le r hr)
  rw [RecordedEpoch.Agrees, hicount, ← chain_guestAt]
  constructor
  · rintro ⟨epoch', sim, hdecode', hsim', hchain⟩
    obtain rfl := Outcome.ok.inj (hdecode.symm.trans hdecode')
    obtain rfl := Outcome.ok.inj (hsim.symm.trans hsim')
    exact hchain
  · intro hchain
    exact ⟨epoch, _, hdecode, hsim, hchain⟩

theorem applies_of_validateStructure (hvalid : validateStructure blake3 segment = .ok ())
    (hrecords : (segment.records : Outcome HvFault _) = .ok (rs.map framed))
    (hend : segment.header.endIcount.toNat + mockEpochIcounts < 2 ^ 64) : Applies segment rs := by
  obtain ⟨rs', hs⟩ := (validateStructure_eq_ok blake3 segment).mp hvalid
  have hframed : Function.Injective framed := by
    intro r r' h
    exact congrArg Prod.fst (Except.ok.inj h)
  have hmap := Outcome.ok.inj (hs.records_eq.symm.trans hrecords)
  obtain rfl := List.map_injective_iff.mpr hframed hmap
  exact hs.applies hend

theorem filter_isEpoch (h : ∀ r ∈ auxOf kindEpochHash rs, r.payload.length = 40) :
    rs.filter (fun r => r.IsEpoch) = auxOf kindEpochHash rs := by
  apply List.filter_congr
  intro r hr
  rw [decide_eq_decide]
  constructor
  · exact fun hepoch => ⟨hepoch.1, hepoch.2.1⟩
  · intro haux
    exact ⟨haux.1, haux.2, h r (List.mem_filter.mpr ⟨hr, decide_eq_true haux⟩)⟩

/-- A replay without a fold has one end hash, whatever the run and the index. -/
theorem replayHash_clean {defect : InjectedDefect} (hdefect : defect.ReplaysClean)
    (run run' : Nat) (index index' : UInt32) :
    replayHash blake3 defect segment (.replayed run) index rs =
      replayHash blake3 defect segment (.replayed run') index' rs := by
  rw [replayHash, replayHash, replayTimeline, replayTimeline, hdefect.foldFor, hdefect.foldFor]

/-- Of a segment that the validator accepts, whose epochs can all be read and
whose end can be stepped to, a call to verify and a probe of the end return the
same hash; and it is verified exactly when every epoch is replayed and the hash
is that of the header. -/
theorem verifySegment_agrees {blake3 : Bytes → Bytes32} {segment : DhilogSegment}
    {rs : List Record} (hvalid : validateStructure blake3 segment = .ok ())
    (hrecords : (segment.records : Outcome HvFault _) = .ok (rs.map framed))
    (hend : segment.header.endIcount.toNat + mockEpochIcounts < 2 ^ 64)
    (hepochs : ∀ r ∈ auxOf kindEpochHash rs, r.payload.length = 40)
    (s s' : HvState (MockHypervisor blake3)) (hdefect : s.hv.defect.ReplaysClean)
    (hsame : s'.hv.defect = s.hv.defect) (hlt : s.budget.used < s.budget.maxRuns)
    (hlt' : s'.budget.used < s'.budget.maxRuns) (opts : VerifyOpts) :
    ∃ outcome, (HypervisorReplay.verifySegment segment.header.baseSnapshotId segment opts s).1 =
        .ok outcome ∧
      (HypervisorReplay.runToIcount segment.header.baseSnapshotId segment
        segment.header.endIcount.toNat (s'.hv, s'.budget)).1 = .ok outcome.endStateHash ∧
      ((∃ hash epochsOk, outcome = .verified hash epochsOk) ↔
        (∀ r ∈ auxOf kindEpochHash rs,
          ReplaysEpoch blake3 s.hv.defect segment s.hv.runs opts.segmentIndex r) ∧
        outcome.endStateHash = segment.header.endStateHash) ∧
      ∀ hash epochsOk, outcome = .verified hash epochsOk →
        epochsOk = (auxOf kindEpochHash rs).length := by
  have ha := applies_of_validateStructure hvalid hrecords hend
  obtain ⟨epochs, hrecorded, hrs⟩ := exists_recordedEpochs (ε := HvFault) rs
  rw [filter_isEpoch hepochs] at hrs
  have hcount : epochs.length = (auxOf kindEpochHash rs).length := hrs.length_eq.symm
  have hagree : (∀ r ∈ auxOf kindEpochHash rs,
      ReplaysEpoch blake3 s.hv.defect segment s.hv.runs opts.segmentIndex r) ↔
        ∀ epoch ∈ epochs, epoch.Agrees blake3 (segment.seed blake3)
          (replayTimeline s.hv.defect (.replayed s.hv.runs) opts.segmentIndex rs) := by
    refine forall_iff_of_forall₂ hrs fun r hr epoch hdecode => ?_
    exact replaysEpoch_iff ha _ _ _ (List.mem_filter.mp hr).1 hdecode.1 hdecode.2
  have hprobe : (HypervisorReplay.runToIcount segment.header.baseSnapshotId segment
      segment.header.endIcount.toNat (s'.hv, s'.budget)).1 =
        .ok (replayHash blake3 s.hv.defect segment (.replayed s.hv.runs) opts.segmentIndex rs) := by
    rw [runToIcount_eq rfl (le_refl _) hlt', ha.simTo _ _ _ (le_refl _), hsame, ok_bind, pure_eq,
      replayHash_clean hdefect s.hv.runs s'.hv.runs opts.segmentIndex 0]
    rfl
  have hcall := ha.verifySegment hrecorded opts s hlt
  generalize HypervisorReplay.verifySegment segment.header.baseSnapshotId segment opts s = result
    at hcall ⊢
  cases hcall with
  | malformed hbad =>
      obtain ⟨r, hr, haux, hkind, hlen⟩ := hbad
      exact absurd (hepochs r (List.mem_filter.mpr ⟨hr, decide_eq_true ⟨haux, hkind⟩⟩)) hlen
  | verified hwell hagrees hhash =>
      refine ⟨_, rfl, hprobe, ⟨fun _ => ⟨hagree.mpr hagrees, hhash⟩, fun _ => ⟨_, _, rfl⟩⟩, ?_⟩
      intro hash epochsOk heq
      rw [← hcount]
      exact (SegmentOutcome.verified.inj heq).2.symm
  | diverged hbad =>
      obtain ⟨d, s₁, hreport, hhash⟩ := ha.reportDivergence s.hv.defect opts s.hv.runs _
      refine ⟨.diverged d, congrArg Prod.fst hreport, ?_, ⟨?_, ?_⟩, ?_⟩
      · rw [SegmentOutcome.endStateHash, hhash]
        exact hprobe
      · rintro ⟨hash, epochsOk, heq⟩
        cases heq
      · -- every epoch replayed and the hash met: there is nothing to diverge on
        rintro ⟨hall, heq⟩
        rw [SegmentOutcome.endStateHash, hhash] at heq
        rcases hbad with ⟨epoch, hepoch, hne⟩ | hne
        · exact absurd (hagree.mp hall epoch hepoch) hne
        · exact absurd heq hne
      · intro hash epochsOk heq
        cases heq

/-- A skewed recording with everything at one boundary, under a mock with its
skew. -/
theorem verifySegment_agrees_crowdedScript :
    ∃ segment outcome, validateStructure Blake3.hash segment = .ok () ∧
      (HypervisorReplay.verifySegment segment.header.baseSnapshotId segment ⟨true, 1⟩
        (⟨MockHypervisor.new Blake3.hash (.recordedSkew 1 4096), RunBudget.new 9, []⟩ :
          HvState (MockHypervisor Blake3.hash))).1 = .ok outcome ∧
      (HypervisorReplay.runToIcount segment.header.baseSnapshotId segment
        segment.header.endIcount.toNat
        (MockHypervisor.new Blake3.hash (.recordedSkew 1 4096), RunBudget.new 1)).1 =
        .ok outcome.endStateHash := by
  obtain ⟨⟨bytes, hash⟩, hwrite, hne⟩ := isOkAnd_iff.mp endHash_crowdedScript
  obtain ⟨segment, -, hw⟩ := writtenAs_of_writeSegment hwrite
  have hsealed := hw.sealedSegment writable_crowdedScript.fits (of_decide_eq_true hne)
  have hvalid := (validateStructure_eq_ok Blake3.hash segment).mpr ⟨_, hsealed⟩
  have hend : segment.header.endIcount.toNat + mockEpochIcounts < 2 ^ 64 := by
    rw [hw.endIcount]
    decide
  have hepochs : ∀ r ∈ auxOf kindEpochHash (crowdedScript.recordList Blake3.hash),
      r.payload.length = 40 := by
    intro r hr
    obtain ⟨hr, haux⟩ := List.mem_filter.mp hr
    obtain ⟨haux, hkind⟩ := of_decide_eq_true haux
    exact (replayable_recordList hw.valid).epochs r hr haux hkind
  obtain ⟨outcome, hcall, hprobe, -⟩ := verifySegment_agrees hvalid hw.records hend hepochs
    ⟨MockHypervisor.new Blake3.hash (.recordedSkew 1 4096), RunBudget.new 9, []⟩
    ⟨MockHypervisor.new Blake3.hash (.recordedSkew 1 4096), RunBudget.new 1, []⟩
    trivial rfl (by decide) (by decide) ⟨true, 1⟩
  exact ⟨segment, outcome, hvalid, hcall, hprobe⟩

end Verdict

end ReplayRenderer
