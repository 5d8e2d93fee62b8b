import ReplayRenderer.Lib.Blake3
import ReplayRenderer.MockHv.Timeline

/-!
Two guests that differ go on differing. The register is folded by a
bijection and the chain by a hash of chain and register, so whatever is done
to both of them alike leaves a difference where there was one, as long as the
hash tells apart what the two runs feed it. This is what the binary searches
of native bisection rest on.
-/

namespace ReplayRenderer

open Lib Lib.Outcome

inductive GuestOp where
  | stepTo (target : UInt64)
  | foldBytes (bytes : Bytes)
  deriving DecidableEq, Repr

section Runs

variable (blake3 : Bytes → Bytes32) {ε : Type}

def GuestSim.apply (sim : GuestSim) : GuestOp → Outcome ε GuestSim
  | .stepTo target => sim.stepTo blake3 target.toNat
  | .foldBytes bytes => .ok (sim.foldBytes bytes)

def GuestSim.run (sim : GuestSim) : List GuestOp → Outcome ε GuestSim
  | [] => .ok sim
  | op :: ops => do
    let sim ← sim.apply blake3 op
    sim.run ops

/-- No target lies before the one ahead of it, and the first not before
`icount`. -/
def NonDecreasing : Nat → List GuestOp → Prop
  | _, [] => True
  | icount, .stepTo target :: ops => icount ≤ target.toNat ∧ NonDecreasing target.toNat ops
  | icount, .foldBytes _ :: ops => NonDecreasing icount ops

def BoundaryFits (target : UInt64) : Prop :=
  (target.toNat / mockEpochIcounts + 1) * mockEpochIcounts < u64Bound

/-- What folding the chain `n` times hashes. -/
def chainFoldInputs (fnv : UInt64) : Nat → Bytes32 → List Bytes
  | 0, _ => []
  | n + 1, chain =>
    (chain.bytes ++ le64 fnv) ::
      chainFoldInputs fnv n (blake3 (chain.bytes ++ le64 fnv))

def GuestSim.stateInput (sim : GuestSim) : Bytes :=
  sim.chain.bytes ++ le64 sim.fnv ++ leBytes 8 sim.icount

/-- Everything a run hashes, and the state hash at its end. -/
def GuestSim.inputs (sim : GuestSim) : List GuestOp → List Bytes
  | [] => [sim.stateInput]
  | .stepTo target :: ops =>
    chainFoldInputs blake3 sim.fnv
        (target.toNat / mockEpochIcounts - sim.icount / mockEpochIcounts) sim.chain ++
      (sim.stepped blake3 target.toNat).inputs ops
  | .foldBytes bytes :: ops => (sim.foldBytes bytes).inputs ops

end Runs

instance (target : UInt64) : Decidable (BoundaryFits target) := inferInstanceAs (Decidable (_ < _))

structure GuestSim.Differ (a b : GuestSim) : Prop where
  icount_eq : a.icount = b.icount
  ne : (a.fnv, a.chain) ≠ (b.fnv, b.chain)

/-! ### One operation -/

section Steps

variable {blake3 : Bytes → Bytes32} {ε : Type} {a b : GuestSim}

/-- Inputs that agree put the same chain first. -/
theorem chain_eq_of_append {c c' : Bytes32} {s s' : Bytes}
    (h : c.bytes ++ s = c'.bytes ++ s') : c = c' :=
  Bytes32.ext (List.append_inj h (by simp)).1

theorem chainFold_ne {fnv : UInt64} {n : Nat} {c c' : Bytes32} (hne : c ≠ c')
    (hfree : ∀ x ∈ chainFoldInputs blake3 fnv n c, ∀ y ∈ chainFoldInputs blake3 fnv n c',
      blake3 x = blake3 y → x = y) :
    chainFold blake3 fnv n c ≠ chainFold blake3 fnv n c' := by
  induction n generalizing c c' with
  | zero => exact hne
  | succ n ih =>
      rw [chainFold, chainFold]
      refine ih ?_ fun x hx y hy =>
        hfree x (List.mem_cons_of_mem _ hx) y (List.mem_cons_of_mem _ hy)
      intro heq
      exact hne (chain_eq_of_append (hfree _ (List.mem_cons_self ..) _ (List.mem_cons_self ..) heq))

/-- A step folds the two chains as often, over registers that stay. -/
theorem GuestSim.Differ.stepped (h : a.Differ b) {target : Nat}
    (hfree : ∀ x ∈ chainFoldInputs blake3 a.fnv
        (target / mockEpochIcounts - a.icount / mockEpochIcounts) a.chain,
      ∀ y ∈ chainFoldInputs blake3 b.fnv
        (target / mockEpochIcounts - b.icount / mockEpochIcounts) b.chain,
      blake3 x = blake3 y → x = y) :
    (a.stepped blake3 target).Differ (b.stepped blake3 target) := by
  refine ⟨rfl, fun heq => ?_⟩
  obtain ⟨hfnv, hchain⟩ := Prod.mk.inj heq
  rw [GuestSim.stepped, GuestSim.stepped] at hfnv hchain
  simp only at hfnv hchain
  rw [hfnv, h.icount_eq] at hfree hchain
  have hne : a.chain ≠ b.chain := fun hsame => h.ne (by rw [hfnv, hsame])
  exact chainFold_ne hne hfree hchain

/-- Folding is a bijection of the register, and leaves the chain alone. -/
theorem GuestSim.Differ.foldBytes (h : a.Differ b) (bytes : Bytes) :
    (a.foldBytes bytes).Differ (b.foldBytes bytes) := by
  refine ⟨h.icount_eq, fun heq => h.ne ?_⟩
  obtain ⟨hfnv, hchain⟩ := Prod.mk.inj heq
  have hfold : a.fnv = b.fnv := fnvFold_injective bytes hfnv
  have hsame : a.chain = b.chain := hchain
  rw [hfold, hsame]

theorem GuestSim.Differ.chainValue_ne (h : a.Differ b)
    (hfree : blake3 a.stateInput = blake3 b.stateInput → a.stateInput = b.stateInput) :
    a.chainValue blake3 ≠ b.chainValue blake3 := by
  intro heq
  have hinput : a.stateInput = b.stateInput := hfree heq
  have hfnv : a.fnv = b.fnv := register_eq_of_append hinput
  have hchain : a.chain = b.chain := by
    rw [GuestSim.stateInput, GuestSim.stateInput, List.append_assoc, List.append_assoc] at hinput
    exact chain_eq_of_append hinput
  exact h.ne (by rw [hfnv, hchain])

/-! ### Whole runs -/

theorem run_stepTo {sim : GuestSim} {target : UInt64} {ops : List GuestOp}
    (hle : sim.icount ≤ target.toNat) :
    (sim.run blake3 (.stepTo target :: ops) : Outcome ε GuestSim) =
      if BoundaryFits target then (sim.stepped blake3 target.toNat).run blake3 ops else .panic := by
  rw [GuestSim.run, GuestSim.apply, stepTo_eq]
  by_cases hfits : BoundaryFits target
  · rw [if_pos ⟨hle, hfits⟩, if_pos hfits, ok_bind]
  · rw [if_neg fun h => hfits h.2, if_neg hfits, panic_bind]

/-- A run goes on to its end unless the boundary behind a target does not fit. -/
theorem run_panics {sim : GuestSim} {ops : List GuestOp} (htargets : NonDecreasing sim.icount ops)
    {target : UInt64} (hmem : .stepTo target ∈ ops) (hover : ¬BoundaryFits target) :
    (sim.run blake3 ops : Outcome ε GuestSim) = .panic := by
  induction ops generalizing sim with
  | nil => cases hmem
  | cons op ops ih =>
      cases op with
      | stepTo next =>
          rw [run_stepTo htargets.1]
          by_cases hfits : BoundaryFits next
          · rw [if_pos hfits]
            refine ih htargets.2 ((List.mem_cons.mp hmem).resolve_left ?_)
            rintro ⟨⟩
            exact hover hfits
          · rw [if_neg hfits]
      | foldBytes bytes =>
          rw [GuestSim.run, GuestSim.apply, ok_bind]
          exact ih htargets ((List.mem_cons.mp hmem).resolve_left (by simp))

/-- Guests that differ run alike, and differ at the end. -/
theorem GuestSim.Differ.run (h : a.Differ b) {ops : List GuestOp}
    (htargets : NonDecreasing a.icount ops)
    (hfits : ∀ target, .stepTo target ∈ ops → BoundaryFits target)
    (hfree : ∀ x ∈ a.inputs blake3 ops, ∀ y ∈ b.inputs blake3 ops, blake3 x = blake3 y → x = y) :
    ∃ a' b', (a.run blake3 ops : Outcome ε GuestSim) = .ok a' ∧
      (b.run blake3 ops : Outcome ε GuestSim) = .ok b' ∧ a'.Differ b' ∧
      a'.chainValue blake3 ≠ b'.chainValue blake3 := by
  induction ops generalizing a b with
  | nil =>
      exact ⟨a, b, rfl, rfl, h,
        h.chainValue_ne (hfree _ (List.mem_singleton.mpr rfl) _ (List.mem_singleton.mpr rfl))⟩
  | cons op ops ih =>
      have hrest := fun target hmem => hfits target (List.mem_cons_of_mem _ hmem)
      cases op with
      | stepTo target =>
          have hstep : (a.stepped blake3 target.toNat).Differ (b.stepped blake3 target.toNat) :=
            h.stepped fun x hx y hy =>
              hfree x (List.mem_append_left _ hx) y (List.mem_append_left _ hy)
          rw [run_stepTo htargets.1, run_stepTo (h.icount_eq ▸ htargets.1),
            if_pos (hfits target (List.mem_cons_self ..)), if_pos (hfits target
              (List.mem_cons_self ..))]
          exact ih hstep htargets.2 hrest fun x hx y hy =>
            hfree x (List.mem_append_right _ hx) y (List.mem_append_right _ hy)
      | foldBytes bytes => exact ih (h.foldBytes bytes) htargets hrest hfree

end Steps

/-- A difference never cancels out: guests that differ at one icount differ
after any operations on both, in their registers or chains and in their state
hashes, and two registers are never folded into one. -/
theorem run_differ {blake3 : Bytes → Bytes32} {ε : Type} {a b : GuestSim}
    (hicount : a.icount = b.icount) (hne : (a.fnv, a.chain) ≠ (b.fnv, b.chain))
    {ops : List GuestOp} (htargets : NonDecreasing a.icount ops)
    (hfree : ∀ x ∈ a.inputs blake3 ops, ∀ y ∈ b.inputs blake3 ops, blake3 x = blake3 y → x = y) :
    ((∃ target, .stepTo target ∈ ops ∧ ¬BoundaryFits target) ∧
        (a.run blake3 ops : Outcome ε GuestSim) = .panic ∧
        (b.run blake3 ops : Outcome ε GuestSim) = .panic ∨
      (∀ target, .stepTo target ∈ ops → BoundaryFits target) ∧
        ∃ a' b', (a.run blake3 ops : Outcome ε GuestSim) = .ok a' ∧
          (b.run blake3 ops : Outcome ε GuestSim) = .ok b' ∧
          (a'.fnv, a'.chain) ≠ (b'.fnv, b'.chain) ∧
          a'.chainValue blake3 ≠ b'.chainValue blake3) ∧
      ∀ (bytes : Bytes) (x y : GuestSim), (x.foldBytes bytes).fnv = (y.foldBytes bytes).fnv →
        x.fnv = y.fnv := by
  refine ⟨?_, fun bytes x y h => fnvFold_injective bytes h⟩
  by_cases hfits : ∀ target, .stepTo target ∈ ops → BoundaryFits target
  · obtain ⟨a', b', ha, hb, hdiffer, hvalue⟩ :=
      GuestSim.Differ.run (ε := ε) ⟨hicount, hne⟩ htargets hfits hfree
    exact .inr ⟨hfits, a', b', ha, hb, hdiffer.ne, hvalue⟩
  · push Not at hfits
    obtain ⟨target, hmem, hover⟩ := hfits
    exact .inl ⟨⟨target, hmem, hover⟩, run_panics htargets hmem hover,
      run_panics (hicount ▸ htargets) hmem hover⟩

/-- Guests a bit of the register apart, taken over two boundaries and a fold. -/
def bitApart (fnv : UInt64) : GuestSim := ⟨fnv, Bytes32.fill 1, 4000⟩

def crossingOps : List GuestOp := [.stepTo 5000, .foldBytes [1, 2], .stepTo 8192]

theorem nonDecreasing_crossingOps : NonDecreasing (bitApart 2).icount crossingOps :=
  ⟨by decide, by decide, trivial⟩

theorem inputs_bitApart :
    ∀ x ∈ (bitApart 2).inputs Blake3.hash crossingOps,
      ∀ y ∈ (bitApart 3).inputs Blake3.hash crossingOps,
        Blake3.hash x = Blake3.hash y → x = y := by
  decide +kernel

theorem run_differ_bitApart :
    ((∃ target, .stepTo target ∈ crossingOps ∧ ¬BoundaryFits target) ∧
        ((bitApart 2).run Blake3.hash crossingOps : Outcome Empty GuestSim) = .panic ∧
        ((bitApart 3).run Blake3.hash crossingOps : Outcome Empty GuestSim) = .panic ∨
      (∀ target, .stepTo target ∈ crossingOps → BoundaryFits target) ∧
        ∃ a' b', ((bitApart 2).run Blake3.hash crossingOps : Outcome Empty GuestSim) = .ok a' ∧
          ((bitApart 3).run Blake3.hash crossingOps : Outcome Empty GuestSim) = .ok b' ∧
          (a'.fnv, a'.chain) ≠ (b'.fnv, b'.chain) ∧
          a'.chainValue Blake3.hash ≠ b'.chainValue Blake3.hash) ∧
      ∀ (bytes : Bytes) (x y : GuestSim), (x.foldBytes bytes).fnv = (y.foldBytes bytes).fnv →
        x.fnv = y.fnv := by
  have hne : ((bitApart 2).fnv, (bitApart 2).chain) ≠ ((bitApart 3).fnv, (bitApart 3).chain) := by
    decide
  have hicount : (bitApart 2).icount = (bitApart 3).icount := rfl
  exact run_differ hicount hne nonDecreasing_crossingOps inputs_bitApart

end ReplayRenderer
