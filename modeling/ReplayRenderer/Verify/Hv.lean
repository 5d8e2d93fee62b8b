import ReplayRenderer.Splice.Rules

/-!
The seam between the verification drivers and a hypervisor. An
implementation is a state and two procedures over it; both may also spend
from the run budget they are lent, and one streams events.

`Logged` wraps any implementation and keeps the calls made to it, with what
each returned. A driver cannot tell the difference, so what it does to a
hypervisor is what the log of a logged one says.
-/

namespace ReplayRenderer

open Lib Lib.Outcome

inductive VerifyEvent where
  | segmentStarted (segmentIndex : UInt32)
  | epochOk (segmentIndex : UInt32) (epochIndex : UInt64) (icount : Nat)
  | runCompleted (segmentIndex : UInt32)
  deriving DecidableEq, Repr

structure VerifyOpts where
  bisectOnDivergence : Bool
  /-- 1-based path position. -/
  segmentIndex : UInt32
  deriving DecidableEq, Repr

structure RegDiff where
  name : String
  expected : UInt64
  actual : UInt64
  deriving DecidableEq, Repr

structure Divergence where
  icountLo : Nat
  icountHi : Nat
  ripExpected : UInt64
  ripActual : UInt64
  regDiff : List RegDiff
  diffPageIdx : List Nat
  suspectedCause : String
  endStateHash : StateHash
  deriving DecidableEq

inductive SegmentOutcome where
  | verified (endStateHash : StateHash) (epochsOk : Nat)
  | diverged (divergence : Divergence)
  deriving DecidableEq

/-- The hash an outcome carries, whichever it is. -/
def SegmentOutcome.endStateHash : SegmentOutcome → StateHash
  | .verified endStateHash _ => endStateHash
  | .diverged d => d.endStateHash

inductive HvFault where
  | unappliableRecord (icount : Nat) (detail : String)
  | probePastEnd (stopIcount endIcount : Nat)
  | baseMismatch
  | noBudget
  deriving DecidableEq, Repr

def HvFault.display : HvFault → String
  | .unappliableRecord icount detail =>
    "cannot apply canonical record at icount " ++ toString icount ++ ": " ++ detail
  | .probePastEnd stopIcount endIcount =>
    "probe stop_icount " ++ toString stopIcount ++ " past segment end_icount "
      ++ toString endIcount
  | .baseMismatch => "base snapshot mismatch: segment expects a different base"
  | .noBudget => "run budget exhausted before the run could start"

/-- The total-run budget. It cannot be overspent. -/
structure RunBudget where
  maxRuns : Nat
  used : Nat
  used_le : used ≤ maxRuns
  deriving DecidableEq

def RunBudget.new (maxRuns : Nat) : RunBudget := ⟨maxRuns, 0, Nat.zero_le _⟩

def RunBudget.remaining (b : RunBudget) : Nat := b.maxRuns - b.used

def RunBudget.exhausted (b : RunBudget) : Bool := b.maxRuns ≤ b.used

def RunBudget.tryConsume (b : RunBudget) : Bool × RunBudget :=
  if h : b.used < b.maxRuns then (true, ⟨b.maxRuns, b.used + 1, h⟩) else (false, b)

theorem RunBudget.exhausted_iff {b : RunBudget} : b.exhausted = true ↔ b.remaining = 0 := by
  have hle := b.used_le
  simp only [RunBudget.exhausted, RunBudget.remaining, decide_eq_true_eq]
  omega

theorem RunBudget.lt_of_remaining {b : RunBudget} {n : Nat} (h : b.remaining = n + 1) :
    b.used < b.maxRuns := by
  unfold RunBudget.remaining at h
  omega

theorem RunBudget.tryConsume_of_lt {b : RunBudget} (h : b.used < b.maxRuns) :
    b.tryConsume = (true, ⟨b.maxRuns, b.used + 1, h⟩) := dif_pos h

theorem RunBudget.tryConsume_of_le {b : RunBudget} (h : b.maxRuns ≤ b.used) :
    b.tryConsume = (false, b) := dif_neg (not_lt.mpr h)

@[simp] theorem RunBudget.remaining_new (n : Nat) : (RunBudget.new n).remaining = n := rfl

/-- A hypervisor with the budget it spends from and the events it has sent. -/
structure HvState (σ : Type) where
  hv : σ
  budget : RunBudget
  events : List VerifyEvent

class HypervisorReplay (σ : Type) where
  verifySegment : SnapshotRef → DhilogSegment → VerifyOpts →
    Proc (HvState σ) HvFault SegmentOutcome
  runToIcount : SnapshotRef → DhilogSegment → Nat → Proc (σ × RunBudget) HvFault StateHash

def HvState.runToIcount {σ : Type} [HypervisorReplay σ] (base : SnapshotRef)
    (segment : DhilogSegment) (stopIcount : Nat) : Proc (HvState σ) HvFault StateHash := fun s =>
  let (result, (hv, budget)) :=
    HypervisorReplay.runToIcount base segment stopIcount (s.hv, s.budget)
  (result, ⟨hv, budget, s.events⟩)

/-! ### Logging -/

inductive HvCall where
  | verifySegment (base : SnapshotRef) (segment : DhilogSegment) (opts : VerifyOpts)
      (result : Outcome HvFault SegmentOutcome)
  | runToIcount (base : SnapshotRef) (segment : DhilogSegment) (stopIcount : Nat)
      (result : Outcome HvFault StateHash)

/-- A hypervisor that keeps its calls, the oldest first. -/
structure Logged (σ : Type) where
  inner : σ
  calls : List HvCall

def HvState.bare {σ : Type} (s : HvState (Logged σ)) : HvState σ :=
  ⟨s.hv.inner, s.budget, s.events⟩

def HvState.logged {σ : Type} (s : HvState σ) : HvState (Logged σ) :=
  ⟨⟨s.hv, []⟩, s.budget, s.events⟩

@[simp] theorem HvState.calls_logged {σ : Type} (s : HvState σ) : s.logged.hv.calls = [] := rfl

section Logging

variable {σ : Type} [HypervisorReplay σ]

instance : HypervisorReplay (Logged σ) where
  verifySegment base segment opts s :=
    let (result, s') := HypervisorReplay.verifySegment base segment opts s.bare
    (result, ⟨⟨s'.hv, s.hv.calls ++ [.verifySegment base segment opts result]⟩, s'.budget,
      s'.events⟩)
  runToIcount base segment stop s :=
    let (result, (hv, budget)) :=
      HypervisorReplay.runToIcount base segment stop (s.1.inner, s.2)
    (result, (⟨hv, s.1.calls ++ [.runToIcount base segment stop result]⟩, budget))

theorem simulates_verifySegment (base : SnapshotRef) (segment : DhilogSegment)
    (opts : VerifyOpts) :
    Proc.Simulates HvState.bare
      (HypervisorReplay.verifySegment base segment opts :
        Proc (HvState (Logged σ)) HvFault SegmentOutcome)
      (HypervisorReplay.verifySegment base segment opts) :=
  fun _ => ⟨rfl, rfl⟩

/-- A call to a logged hypervisor adds itself to the log, with its result. -/
theorem calls_verifySegment (base : SnapshotRef) (segment : DhilogSegment) (opts : VerifyOpts)
    (s : HvState (Logged σ)) :
    (HypervisorReplay.verifySegment base segment opts s).2.hv.calls =
      s.hv.calls ++ [.verifySegment base segment opts
        (HypervisorReplay.verifySegment base segment opts s).1] := rfl

theorem simulates_runToIcount (base : SnapshotRef) (segment : DhilogSegment)
    (stopIcount : Nat) :
    Proc.Simulates HvState.bare
      (HvState.runToIcount base segment stopIcount :
        Proc (HvState (Logged σ)) HvFault StateHash)
      (HvState.runToIcount base segment stopIcount) :=
  fun _ => ⟨rfl, rfl⟩

theorem calls_runToIcount (base : SnapshotRef) (segment : DhilogSegment) (stopIcount : Nat)
    (s : HvState (Logged σ)) :
    (HvState.runToIcount base segment stopIcount s).2.hv.calls =
      s.hv.calls ++ [.runToIcount base segment stopIcount
        (HvState.runToIcount base segment stopIcount s).1] := rfl

end Logging

/-! ### Playing back -/

/-- A hypervisor that plays back outcomes prepared for it, one run each. -/
structure Scripted where
  script : Nat → Outcome HvFault SegmentOutcome
  next : Nat

instance : HypervisorReplay Scripted where
  verifySegment _ _ _ s :=
    (s.hv.script s.hv.next,
      ⟨⟨s.hv.script, s.hv.next + 1⟩, s.budget.tryConsume.2, s.events⟩)
  runToIcount _ _ _ s := (.err .noBudget, s)

end ReplayRenderer
