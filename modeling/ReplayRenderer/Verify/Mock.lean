import ReplayRenderer.MockHv.Writer
import ReplayRenderer.Verify.Hv

/-!
The mock hypervisor: the toy guest behind the seam. An honest replay folds
the canonical records and compares every recorded epoch; native bisection
searches the recorded epochs for the first bad one and then the icounts
inside it, one budgeted run for each probe. Its oracle, the recorded side of
the comparison, is free.
-/

namespace ReplayRenderer

open Lib Lib.Outcome

structure MockHypervisor (blake3 : Bytes → Bytes32) where
  defect : InjectedDefect
  runs : Nat

def MockHypervisor.new (blake3 : Bytes → Bytes32) (defect : InjectedDefect) :
    MockHypervisor blake3 := { defect, runs := 0 }

inductive Side where
  | replayed (runIndex : Nat)
  | recorded
  deriving DecidableEq

/-- A defect fold scheduled at an icount, with the writer's rank there. -/
structure VirtualFold where
  at_ : Nat
  bytes : Bytes
  done : Bool

def VirtualFold.none : VirtualFold := { at_ := 0, bytes := [], done := true }

def InjectedDefect.foldFor (defect : InjectedDefect) (side : Side) (segmentIndex : UInt32) :
    VirtualFold :=
  match defect, side with
  | .replayNondet segment atIcount flakePeriod, .replayed runIndex =>
    if segment = segmentIndex then
      { at_ := atIcount.toNat
        bytes := utf8 "mock-flake" ++ leBytes 8 (runIndex / max flakePeriod.toNat 1)
        done := false }
    else VirtualFold.none
  | .recordedSkew segment atIcount, .recorded =>
    if segment = segmentIndex then
      { at_ := atIcount.toNat, bytes := skewFold, done := false }
    else VirtualFold.none
  | _, _ => VirtualFold.none

/-- `item.map_err(..)?`. -/
def appliable : RecordItem → Outcome HvFault Record
  | .ok (rec, _) => .ok rec
  | .error e => .err (.unappliableRecord 0 e.display)

structure RecordedEpoch where
  epochIndex : UInt64
  icount : Nat
  chain : Bytes32
  deriving DecidableEq

/-- The reads behind a check that the payload is 40 bytes long. -/
def Record.decodeEpoch {ε : Type} (rec : Record) : Outcome ε RecordedEpoch := do
  let epochIndex ← u64At rec.payload 0
  let chain ← bytes32At rec.payload 8
  pure { epochIndex, icount := rec.icount.toNat, chain }

/-- The epochs a bisection can search; malformed ones are skipped. -/
def recordedEpochs {ε : Type} : List RecordItem → Outcome ε (List RecordedEpoch)
  | [] => .ok []
  | .error _ :: items => recordedEpochs items
  | .ok (rec, _) :: items =>
    if rec.isAux = true ∧ rec.kind = kindEpochHash ∧ rec.payload.length = 40 then do
      let epoch ← rec.decodeEpoch
      let epochs ← recordedEpochs items
      pure (epoch :: epochs)
    else recordedEpochs items

section Simulation

variable (blake3 : Bytes → Bytes32)

def VirtualFold.apply {ε : Type} (fold : VirtualFold) (sim : GuestSim) :
    Outcome ε (VirtualFold × GuestSim) := do
  let sim ← sim.stepTo blake3 fold.at_
  pure ({ fold with done := true }, sim.foldBytes fold.bytes)

/-- Ahead of a record: the fold is due when the record is past it, or at its
icount and no epoch boundary. -/
def VirtualFold.maybeApply {ε : Type} (fold : VirtualFold) (sim : GuestSim) (nextIcount : Nat)
    (nextIsEpochRecord : Bool) : Outcome ε (VirtualFold × GuestSim) :=
  if fold.done = false ∧ (fold.at_ < nextIcount ∨
      (nextIcount = fold.at_ ∧ nextIsEpochRecord = false)) then fold.apply blake3 sim
  else .ok (fold, sim)

/-- At the end, for a fold that no record has made due. -/
def VirtualFold.finish {ε : Type} (fold : VirtualFold) (sim : GuestSim) (stop : Nat) :
    Outcome ε (VirtualFold × GuestSim) :=
  if fold.done = false ∧ fold.at_ ≤ stop then fold.apply blake3 sim
  else .ok (fold, sim)

def foldRecord (sim : GuestSim) (rec : Record) : Outcome HvFault GuestSim :=
  if rec.kind = kindPadSet ∨ rec.kind = kindDevEvent ∨ rec.kind = kindNetRx then do
    let sim ← sim.stepTo blake3 rec.icount.toNat
    pure ((sim.foldBytes [rec.kind]).foldBytes rec.payload)
  else
    .err (.unappliableRecord rec.icount.toNat
      ("unknown canonical record kind 0x" ++ hexDigits 2 rec.kind.toNat))

/-- A canonical record is folded, an AUX one only stepped to. -/
def applyRecord (sim : GuestSim) (rec : Record) : Outcome HvFault GuestSim :=
  if rec.isAux = false then foldRecord blake3 sim rec
  else sim.stepTo blake3 rec.icount.toNat

/-- The loop of `sim_to`. -/
def simLoop (stop : Nat) : VirtualFold → GuestSim → List RecordItem →
    Outcome HvFault (VirtualFold × GuestSim)
  | fold, sim, [] => .ok (fold, sim)
  | fold, sim, item :: items => do
    let rec ← appliable item
    if stop < rec.icount.toNat then pure (fold, sim)
    else do
      let (fold, sim) ←
        fold.maybeApply blake3 sim rec.icount.toNat (rec.kind == kindEpochHash)
      let sim ← applyRecord blake3 sim rec
      simLoop stop fold sim items

def simTo (defect : InjectedDefect) (segment : DhilogSegment) (stop : Nat) (side : Side)
    (segmentIndex : UInt32) : Outcome HvFault GuestSim := do
  let h := segment.header
  let items ← segment.records
  let (fold, sim) ← simLoop blake3 stop (defect.foldFor side segmentIndex)
    (GuestSim.new blake3 h.machineConfigHash h.baseSnapshotId) items
  let (_, sim) ← fold.finish blake3 sim stop
  sim.stepTo blake3 stop

/-- A divergence at `at_` with the window it was narrowed to: plausible
values, fixed functions of where the two sides part. -/
def diagnostics (defect : InjectedDefect) (segment : DhilogSegment) (window : Nat × Nat)
    (at_ : Nat) (segmentIndex : UInt32) (runIndex : Nat) (endStateHash : StateHash) :
    Outcome HvFault Divergence := do
  let expectedReg ← Outcome.unwrapOr 0
    (GuestSim.fnv <$> simTo blake3 defect segment at_ .recorded segmentIndex)
  let actualReg ← Outcome.unwrapOr 0
    (GuestSim.fnv <$> simTo blake3 defect segment at_ (.replayed runIndex) segmentIndex)
  let rip := boundaryRip (UInt64.ofNat at_)
  pure
    { icountLo := window.1
      icountHi := window.2
      ripExpected := rip
      ripActual := rip ^^^ 0x10
      regDiff := [{ name := "rax", expected := expectedReg, actual := actualReg }]
      diffPageIdx := [at_ / mockEpochIcounts, at_ / mockEpochIcounts + 1]
      suspectedCause := "mock: state register divergence at icount " ++ toString at_
      endStateHash }

end Simulation

section Hypervisor

variable {blake3 : Bytes → Bytes32}

/-- One run of the budget, and its number; none when the budget is spent. -/
def spendRun : Proc (HvState (MockHypervisor blake3)) HvFault (Option Nat) := fun s =>
  match s.budget.tryConsume with
  | (true, budget) =>
    (.ok (some s.hv.runs), { s with hv := { s.hv with runs := s.hv.runs + 1 }, budget })
  | (false, budget) => (.ok none, { s with budget })

def HvState.afterRun (s : HvState (MockHypervisor blake3))
    (h : s.budget.used < s.budget.maxRuns) (events : List VerifyEvent) :
    HvState (MockHypervisor blake3) where
  hv := { s.hv with runs := s.hv.runs + 1 }
  budget := ⟨s.budget.maxRuns, s.budget.used + 1, h⟩
  events := events

theorem spendRun_of_lt {s : HvState (MockHypervisor blake3)}
    (h : s.budget.used < s.budget.maxRuns) :
    spendRun s = (.ok (some s.hv.runs), s.afterRun h s.events) := by
  rw [spendRun, RunBudget.tryConsume_of_lt h]
  rfl

section AfterRun

variable {s : HvState (MockHypervisor blake3)} {h : s.budget.used < s.budget.maxRuns}
  {events : List VerifyEvent}

@[simp] theorem used_afterRun : (s.afterRun h events).budget.used = s.budget.used + 1 := rfl

@[simp] theorem maxRuns_afterRun : (s.afterRun h events).budget.maxRuns = s.budget.maxRuns := rfl

end AfterRun

theorem remaining_afterRun {s : HvState (MockHypervisor blake3)} {n : Nat}
    (h : s.budget.remaining = n + 1) (events : List VerifyEvent) :
    (s.afterRun (RunBudget.lt_of_remaining h) events).budget.remaining = n := by
  change s.budget.maxRuns - (s.budget.used + 1) = n
  unfold RunBudget.remaining at h
  omega

def sendEvent (event : VerifyEvent) : Proc (HvState (MockHypervisor blake3)) HvFault Unit :=
  Proc.modify fun s => { s with events := s.events ++ [event] }

theorem sendEvent_apply (event : VerifyEvent) (s : HvState (MockHypervisor blake3)) :
    sendEvent event s = (.ok (), { s with events := s.events ++ [event] }) := rfl

theorem sendEvent_afterRun {s : HvState (MockHypervisor blake3)}
    {h : s.budget.used < s.budget.maxRuns} {events : List VerifyEvent} (event : VerifyEvent) :
    sendEvent event (s.afterRun h events) = (.ok (), s.afterRun h (events ++ [event])) := rfl

structure LeavesRuns (n : Nat) (s s' : HvState (MockHypervisor blake3)) : Prop where
  defect : s'.hv.defect = s.hv.defect
  remaining : s'.budget.remaining = n

theorem LeavesRuns.trans {m n : Nat} {s s' s'' : HvState (MockHypervisor blake3)}
    (h : LeavesRuns m s s') (h' : LeavesRuns n s' s'') : LeavesRuns n s s'' :=
  ⟨h'.defect.trans h.defect, h'.remaining⟩

theorem leavesRuns_self (s : HvState (MockHypervisor blake3)) :
    LeavesRuns s.budget.remaining s s := ⟨rfl, rfl⟩

theorem spendRun_of_zero {s : HvState (MockHypervisor blake3)} (h : s.budget.remaining = 0) :
    spendRun s = (.ok none, s) := by
  have hspent : s.budget.maxRuns ≤ s.budget.used := Nat.le_of_sub_eq_zero h
  rw [spendRun, RunBudget.tryConsume_of_le hspent]

theorem spendRun_of_succ {s : HvState (MockHypervisor blake3)} {n : Nat}
    (h : s.budget.remaining = n + 1) :
    ∃ run s', spendRun s = (.ok (some run), s') ∧ LeavesRuns n s s' :=
  ⟨_, _, spendRun_of_lt (RunBudget.lt_of_remaining h), rfl, remaining_afterRun h s.events⟩

/-! ### The honest replay -/

structure HonestReplay where
  fold : VirtualFold
  sim : GuestSim
  epochsOk : Nat
  firstBadEpoch : Option UInt64

def compareEpoch (blake3 : Bytes → Bytes32) (sim : GuestSim) (rec : Record) :
    Outcome HvFault (GuestSim × RecordedEpoch) := do
  rejectIf (rec.payload.length ≠ 40)
    (.unappliableRecord rec.icount.toNat "malformed EPOCH_HASH payload")
  let epoch ← rec.decodeEpoch
  let sim ← sim.stepTo blake3 rec.icount.toNat
  pure (sim, epoch)

def finishReplay (blake3 : Bytes → Bytes32) (endIcount : Nat) (st : HonestReplay) :
    Outcome HvFault HonestReplay := do
  let (fold, sim) ← st.fold.finish blake3 st.sim endIcount
  let sim ← sim.stepTo blake3 endIcount
  pure { st with fold, sim }

def honestLoop (endIcount : Nat) (segmentIndex : UInt32) : HonestReplay → List RecordItem →
    Proc (HvState (MockHypervisor blake3)) HvFault HonestReplay
  | st, [] => pure st
  | st, item :: items => do
    let rec ← Proc.lift (appliable item)
    let (fold, sim) ← Proc.lift
      (st.fold.maybeApply blake3 st.sim rec.icount.toNat (rec.kind == kindEpochHash))
    if rec.isAux = false then do
      let sim ← Proc.lift (foldRecord blake3 sim rec)
      honestLoop endIcount segmentIndex { st with fold, sim } items
    else if rec.kind = kindEpochHash then do
      let (sim, epoch) ← Proc.lift (compareEpoch blake3 sim rec)
      if sim.chain = epoch.chain then do
        sendEvent (.epochOk segmentIndex epoch.epochIndex rec.icount.toNat)
        honestLoop endIcount segmentIndex { st with fold, sim, epochsOk := st.epochsOk + 1 } items
      else pure { st with fold, sim, firstBadEpoch := some epoch.epochIndex }
    else if rec.kind = kindEnd then do
      let st ← Proc.lift (finishReplay blake3 endIcount { st with fold, sim })
      honestLoop endIcount segmentIndex st items
    else do
      let sim ← Proc.lift (sim.stepTo blake3 rec.icount.toNat)
      honestLoop endIcount segmentIndex { st with fold, sim } items

/-- Whether the replay diverged, once it is brought to the end. -/
def replayVerdict (blake3 : Bytes → Bytes32) (h : DhilogHeader) (st : HonestReplay) :
    Outcome HvFault (Bool × HonestReplay) :=
  match st.firstBadEpoch with
  | some _ => .ok (true, st)
  | none => do
    let st ← finishReplay blake3 h.endIcount.toNat st
    pure (decide (st.sim.chainValue blake3 ≠ h.endStateHash), st)

/-! ### Native bisection -/

section Bisection

variable (defect : InjectedDefect) (segment : DhilogSegment) (side : Side)
  (segmentIndex : UInt32)

structure EpochSearch where
  a : Nat
  b : Nat
  lo : Nat
  hi : Nat
  firstBad : Option Nat

/-- The search for the first bad epoch. Every probe takes at least one epoch
out of `a ..= b`, so as many rounds as there are epochs are enough. -/
def epochLoop (epochs : List RecordedEpoch) : Nat → EpochSearch →
    Proc (HvState (MockHypervisor blake3)) HvFault EpochSearch
  | 0, st => pure st
  | fuel + 1, st =>
    if st.b < st.a then pure st
    else do
      match ← spendRun with
      | none => pure st
      | some _ => do
        let mid := (st.a + st.b) / 2
        let epoch ← Proc.lift (Outcome.expect epochs[mid]?)
        let probe ← Proc.lift (simTo blake3 defect segment epoch.icount side segmentIndex)
        if probe.chain = epoch.chain then
          epochLoop epochs fuel { st with lo := max st.lo epoch.icount, a := mid + 1 }
        else if mid = 0 then
          pure { st with hi := min st.hi epoch.icount, firstBad := some mid }
        else
          epochLoop epochs fuel
            { st with hi := min st.hi epoch.icount, firstBad := some mid, b := mid - 1 }

/-- The window a search leaves: what its probes have shown, and the epoch
before the bad one. -/
def EpochSearch.window (st : EpochSearch) (epochs : List RecordedEpoch) :
    Outcome HvFault (Nat × Nat) :=
  match st.firstBad with
  | none => .ok (st.lo, st.hi)
  | some bad => do
    let badEpoch ← Outcome.expect epochs[bad]?
    if 0 < bad then do
      let goodEpoch ← Outcome.expect epochs[bad - 1]?
      pure (max st.lo goodEpoch.icount, min st.hi badEpoch.icount)
    else pure (st.lo, min st.hi badEpoch.icount)

def epochWindow (epochs : List RecordedEpoch) :
    Proc (HvState (MockHypervisor blake3)) HvFault (Nat × Nat) :=
  if epochs.isEmpty then pure (0, segment.header.endIcount.toNat)
  else do
    let st ← epochLoop defect segment side segmentIndex epochs epochs.length
      { a := 0
        b := epochs.length - 1
        lo := 0
        hi := segment.header.endIcount.toNat
        firstBad := none }
    Proc.lift (st.window epochs)

structure IcountSearch where
  a : Nat
  b : Nat
  lo : Nat
  hi : Nat

def agreesAt (blake3 : Bytes → Bytes32) (icount : Nat) : Outcome HvFault Bool := do
  let replayed ← simTo blake3 defect segment icount side segmentIndex
  let oracle ← simTo blake3 defect segment icount .recorded segmentIndex
  pure (decide (replayed.chainValue blake3 = oracle.chainValue blake3))

/-- The search inside the bad epoch. Every probe halves `b - a`, a 64-bit
number, so 64 rounds are enough. -/
def narrowLoop : Nat → IcountSearch → Proc (HvState (MockHypervisor blake3)) HvFault IcountSearch
  | 0, st => pure st
  | fuel + 1, st =>
    if st.a < st.b then do
      match ← spendRun with
      | none => pure st
      | some _ => do
        let mid := st.a + (st.b - st.a) / 2
        let agrees ← Proc.lift (agreesAt defect segment side segmentIndex blake3 mid)
        if agrees then narrowLoop fuel { st with a := mid + 1, lo := mid }
        else narrowLoop fuel { st with b := mid, hi := mid }
    else pure st

/-- The last probe, on the one icount left: it makes the window exact. -/
def lastProbe (st : IcountSearch) :
    Proc (HvState (MockHypervisor blake3)) HvFault (IcountSearch × Option Nat) :=
  if st.a = st.b then do
    match ← spendRun with
    | none => pure (st, none)
    | some _ => do
      let agrees ← Proc.lift (agreesAt defect segment side segmentIndex blake3 st.a)
      if agrees then pure (st, none)
      else pure ({ st with hi := st.a, lo := st.a }, some st.a)
  else pure (st, none)

/-- The window of a divergence, and where in it to take diagnostics. -/
def nativeWindow (items : List RecordItem) :
    Proc (HvState (MockHypervisor blake3)) HvFault ((Nat × Nat) × Nat) := do
  let epochs ← Proc.lift (recordedEpochs items)
  let (lo, hi) ← epochWindow defect segment side segmentIndex epochs
  let st ← narrowLoop defect segment side segmentIndex 64 { a := lo, b := hi, lo, hi }
  let (st, exact) ← lastProbe defect segment side segmentIndex st
  pure ((st.lo, st.hi), exact.getD st.hi)

end Bisection

/-! ### The calls -/

def reportDivergence (defect : InjectedDefect) (segment : DhilogSegment) (opts : VerifyOpts)
    (runIndex : Nat) (items : List RecordItem) :
    Proc (HvState (MockHypervisor blake3)) HvFault SegmentOutcome := do
  let endIcount := segment.header.endIcount.toNat
  let endSim ← Proc.lift
    (simTo blake3 defect segment endIcount (.replayed runIndex) opts.segmentIndex)
  let replayEnd := endSim.chainValue blake3
  if opts.bisectOnDivergence = false then do
    let d ← Proc.lift (diagnostics blake3 defect segment (0, endIcount) endIcount
      opts.segmentIndex runIndex replayEnd)
    pure (.diverged d)
  else do
    let (window, at_) ←
      nativeWindow defect segment (.replayed runIndex) opts.segmentIndex items
    let d ← Proc.lift (diagnostics blake3 defect segment window at_ opts.segmentIndex runIndex
      replayEnd)
    pure (.diverged d)

def MockHypervisor.verifySegment (base : SnapshotRef) (segment : DhilogSegment)
    (opts : VerifyOpts) : Proc (HvState (MockHypervisor blake3)) HvFault SegmentOutcome := do
  let h := segment.header
  Proc.lift (rejectIf (base ≠ h.baseSnapshotId) .baseMismatch)
  match ← spendRun with
  | none => Proc.lift (.err .noBudget)
  | some runIndex => do
    sendEvent (.segmentStarted opts.segmentIndex)
    let defect ← Proc.gets fun s => s.hv.defect
    let items ← Proc.lift segment.records
    let st ← honestLoop h.endIcount.toNat opts.segmentIndex
      { fold := defect.foldFor (.replayed runIndex) opts.segmentIndex
        sim := GuestSim.new blake3 h.machineConfigHash h.baseSnapshotId
        epochsOk := 0
        firstBadEpoch := none } items
    let (diverged, st) ← Proc.lift (replayVerdict blake3 h st)
    sendEvent (.runCompleted opts.segmentIndex)
    if diverged then reportDivergence defect segment opts runIndex items
    else pure (.verified (st.sim.chainValue blake3) st.epochsOk)

def MockHypervisor.runToIcount (base : SnapshotRef) (segment : DhilogSegment)
    (stopIcount : Nat) : Proc (HvState (MockHypervisor blake3)) HvFault StateHash := do
  let h := segment.header
  Proc.lift (rejectIf (base ≠ h.baseSnapshotId) .baseMismatch)
  Proc.lift (rejectIf (h.endIcount.toNat < stopIcount)
    (.probePastEnd stopIcount h.endIcount.toNat))
  match ← spendRun with
  | none => Proc.lift (.err .noBudget)
  | some runIndex => do
    let defect ← Proc.gets fun s => s.hv.defect
    let sim ← Proc.lift (simTo blake3 defect segment stopIcount (.replayed runIndex) 0)
    pure (sim.chainValue blake3)

instance : HypervisorReplay (MockHypervisor blake3) where
  verifySegment := MockHypervisor.verifySegment
  runToIcount base segment stopIcount := fun (hv, budget) =>
    let (result, s) := MockHypervisor.runToIcount base segment stopIcount ⟨hv, budget, []⟩
    (result, (s.hv, s.budget))

end Hypervisor

end ReplayRenderer
