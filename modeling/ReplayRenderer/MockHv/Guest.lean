import ReplayRenderer.Lib.Bytes

/-!
The toy guest: an FNV-1a register folded over the bytes it is fed, and a
BLAKE3 chain folded over the register at every epoch boundary. Stepping
checks its direction and its arithmetic; everything else is total.
-/

namespace ReplayRenderer

open Lib Lib.Outcome

def mockEpochIcounts : Nat := 4096

def skewFold : Bytes := utf8 "mock-recorded-skew-v1"

inductive InjectedDefect where
  | none
  /-- Run-dependent value folded in from that icount on. -/
  | replayNondet (segment : UInt32) (atIcount : UInt64) (flakePeriod : UInt32)
  /-- The recording was made with the skew, the replay runs without. -/
  | recordedSkew (segment : UInt32) (atIcount : UInt64)
  deriving DecidableEq, Repr

def fnvOffsetBasis : UInt64 := 0xcbf29ce484222325
def fnvPrime : UInt64 := 0x00000100000001b3

def fnvFold (fnv : UInt64) (bytes : Bytes) : UInt64 :=
  bytes.foldl (fun fnv b => (fnv ^^^ b.toUInt64) * fnvPrime) fnv

structure GuestSim where
  fnv : UInt64
  chain : Bytes32
  icount : Nat
  deriving DecidableEq

section Guest

variable (blake3 : Bytes → Bytes32) {ε : Type}

def chainSeed (machineConfigHash baseSnapshotRef : Bytes32) : Bytes32 :=
  blake3 (utf8 "mock-statehash-v1" ++ machineConfigHash.bytes ++ baseSnapshotRef.bytes)

def GuestSim.new (machineConfigHash baseSnapshotRef : Bytes32) : GuestSim :=
  { fnv := fnvOffsetBasis
    chain := chainSeed blake3 machineConfigHash baseSnapshotRef
    icount := 0 }

/-- The loop of `step_to`, at the boundary `next`; it crosses at most one
boundary an iteration. -/
def GuestSim.crossBoundaries (target : Nat) : Nat → Nat → GuestSim → Outcome ε GuestSim
  | 0, _, sim => .ok sim
  | fuel + 1, next, sim =>
    if next ≤ target then do
      let sim := { sim with chain := blake3 (sim.chain.bytes ++ le64 sim.fnv) }
      let next ← u64Add next mockEpochIcounts
      GuestSim.crossBoundaries target fuel next sim
    else .ok sim

/-- Advance to `target`, folding the chain at every epoch boundary crossed or
landed on. -/
def GuestSim.stepTo (sim : GuestSim) (target : Nat) : Outcome ε GuestSim := do
  require (sim.icount ≤ target)
  let next ← u64Mul (sim.icount / mockEpochIcounts + 1) mockEpochIcounts
  let sim ← GuestSim.crossBoundaries blake3 target (target / mockEpochIcounts + 1) next sim
  pure { sim with icount := target }

def GuestSim.foldBytes (sim : GuestSim) (bytes : Bytes) : GuestSim :=
  { sim with fnv := fnvFold sim.fnv bytes }

def GuestSim.chainValue (sim : GuestSim) : Bytes32 :=
  blake3 (sim.chain.bytes ++ le64 sim.fnv ++ leBytes 8 sim.icount)

end Guest

/-! ### Stepping -/

section Stepping

variable (blake3 : Bytes → Bytes32)

/-- The chain folded `n` times over a register that stays. -/
def chainFold (fnv : UInt64) : Nat → Bytes32 → Bytes32
  | 0, chain => chain
  | n + 1, chain => chainFold fnv n (blake3 (chain.bytes ++ le64 fnv))

variable {blake3} {ε : Type}

/-- The loop folds once for each boundary left, unless it counts past the last
64-bit boundary. -/
theorem crossBoundaries_eq {target fuel k : Nat} {sim : GuestSim}
    (hfuel : target / mockEpochIcounts ≤ k + fuel) (hk : k ≤ target / mockEpochIcounts)
    (hlt : (k + 1) * mockEpochIcounts < u64Bound) :
    (GuestSim.crossBoundaries blake3 target fuel ((k + 1) * mockEpochIcounts) sim :
      Outcome ε GuestSim) =
      if (target / mockEpochIcounts + 1) * mockEpochIcounts < u64Bound then
        .ok { sim with
          chain := chainFold blake3 sim.fnv (target / mockEpochIcounts - k) sim.chain }
      else .panic := by
  induction fuel generalizing k sim with
  | zero =>
      obtain rfl : k = target / mockEpochIcounts := by omega
      rw [if_pos hlt, Nat.sub_self]
      rfl
  | succ fuel ih =>
      rw [GuestSim.crossBoundaries]
      by_cases hnext : (k + 1) * mockEpochIcounts ≤ target
      · have hk' : k + 1 ≤ target / mockEpochIcounts :=
          (Nat.le_div_iff_mul_le (by decide)).mpr hnext
        have hleft : target / mockEpochIcounts - k = target / mockEpochIcounts - (k + 1) + 1 := by
          omega
        rw [if_pos hnext]
        by_cases hadd : (k + 1) * mockEpochIcounts + mockEpochIcounts < u64Bound
        · rw [u64Add_of_lt hadd, ok_bind, ← Nat.succ_mul, ih (by omega) hk' (by
            rwa [Nat.succ_mul]), hleft]
          rfl
        · have hover : ¬(target / mockEpochIcounts + 1) * mockEpochIcounts < u64Bound := by
            rw [← Nat.succ_mul] at hadd
            exact fun h => hadd (lt_of_le_of_lt (Nat.mul_le_mul_right _ (by omega)) h)
          rw [if_neg hover, u64Add, if_neg hadd, panic_bind]
      · obtain rfl : k = target / mockEpochIcounts := by
          have hdiv : target / mockEpochIcounts < k + 1 :=
            (Nat.div_lt_iff_lt_mul (by decide)).mpr (by omega)
          omega
        rw [if_neg hnext, if_pos hlt, Nat.sub_self]
        rfl

/-- The boundary after an icount is no overflow when the one after a later
icount is none. -/
theorem nextBoundary_lt {s t : Nat} (hst : s ≤ t)
    (h : (t / mockEpochIcounts + 1) * mockEpochIcounts < u64Bound) :
    (s / mockEpochIcounts + 1) * mockEpochIcounts < u64Bound := by
  have hdiv : s / mockEpochIcounts ≤ t / mockEpochIcounts := Nat.div_le_div_right hst
  exact lt_of_le_of_lt (Nat.mul_le_mul_right _ (Nat.succ_le_succ hdiv)) h

def GuestSim.stepped (blake3 : Bytes → Bytes32) (sim : GuestSim) (target : Nat) : GuestSim :=
  { sim with
    chain := chainFold blake3 sim.fnv
      (target / mockEpochIcounts - sim.icount / mockEpochIcounts) sim.chain
    icount := target }

theorem stepTo_eq {sim : GuestSim} {target : Nat} :
    (sim.stepTo blake3 target : Outcome ε GuestSim) =
      if sim.icount ≤ target ∧ (target / mockEpochIcounts + 1) * mockEpochIcounts < u64Bound then
        .ok (sim.stepped blake3 target)
      else .panic := by
  rw [GuestSim.stepTo]
  by_cases hle : sim.icount ≤ target
  · have hdiv : sim.icount / mockEpochIcounts ≤ target / mockEpochIcounts :=
      Nat.div_le_div_right hle
    rw [require_pos hle, ok_bind]
    by_cases hmul : (sim.icount / mockEpochIcounts + 1) * mockEpochIcounts < u64Bound
    · rw [u64Mul_of_lt hmul, ok_bind,
        crossBoundaries_eq ((Nat.le_succ _).trans (Nat.le_add_left ..)) hdiv hmul]
      by_cases hbound : (target / mockEpochIcounts + 1) * mockEpochIcounts < u64Bound
      · rw [if_pos hbound, if_pos ⟨hle, hbound⟩]
        rfl
      · rw [if_neg hbound, if_neg fun h => hbound h.2, panic_bind]
    · rw [u64Mul, if_neg hmul, if_neg fun h => hmul (nextBoundary_lt hle h.2), panic_bind]
  · rw [require, if_neg hle, if_neg fun h => hle h.1, panic_bind]

end Stepping

/-! ### Folding is injective in the register -/

theorem fnvFold_append (fnv : UInt64) (a b : Bytes) :
    fnvFold fnv (a ++ b) = fnvFold (fnvFold fnv a) b := List.foldl_append

/-- The prime is odd, so it has an inverse modulo `2 ^ 64`. -/
theorem fnvPrime_mul_inverse : fnvPrime * 0xce965057aff6957b = 1 := by decide

theorem fnvFold_injective (bytes : Bytes) : Function.Injective fun fnv => fnvFold fnv bytes := by
  induction bytes with
  | nil => exact fun _ _ h => h
  | cons b bytes ih =>
      intro x y h
      have hstep : (x ^^^ b.toUInt64) * fnvPrime = (y ^^^ b.toUInt64) * fnvPrime := ih h
      have hxor : x ^^^ b.toUInt64 = y ^^^ b.toUInt64 := by
        have hmul := congrArg (· * (0xce965057aff6957b : UInt64)) hstep
        simpa only [UInt64.mul_assoc, fnvPrime_mul_inverse, UInt64.mul_one] using hmul
      have hcancel := congrArg (· ^^^ b.toUInt64) hxor
      simpa only [UInt64.xor_assoc, UInt64.xor_self, UInt64.xor_zero] using hcancel

end ReplayRenderer
