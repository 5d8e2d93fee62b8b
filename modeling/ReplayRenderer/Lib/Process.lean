import Mathlib

/-!
Programs that read one stream and write two, and the runs of a step relation.

A program is a machine over states of its own that says what it does next. Its
meaning is what it does alone, with its whole input at hand: what it writes,
what it leaves unread, and how it ends. A system that runs the program against
a partner takes steps of either; what each step pays for bounds the runs of the
whole.
-/

namespace Lib

/-! ### Runs of a step relation -/

section Runs

variable {σ : Type} {step : σ → σ → Prop}

inductive Run (step : σ → σ → Prop) : Nat → σ → σ → Prop where
  | refl (s : σ) : Run step 0 s s
  | tail {n : Nat} {s t u : σ} : Run step n s t → step t u → Run step (n + 1) s u

/-- What every step keeps holds after any number of them. -/
theorem Run.invariant {n : Nat} {s t : σ} (hrun : Run step n s t) {inv : σ → Prop}
    (hstep : ∀ s t, inv s → step s t → inv t) (hs : inv s) : inv t := by
  induction hrun with
  | refl s => exact hs
  | tail _ htu ih => exact hstep _ _ (ih hs) htu

/-- What every step hands back to the state before it held from the start. -/
theorem Run.backward {n : Nat} {s t : σ} (hrun : Run step n s t) {inv : σ → Prop}
    (hstep : ∀ s t, step s t → inv t → inv s) (ht : inv t) : inv s := by
  induction hrun with
  | refl s => exact ht
  | tail _ htu ih => exact ih (hstep _ _ htu ht)

/-- An invariant with a weight that every step lowers: it holds at the end of a
run, and the steps of the run have been paid for. -/
theorem Run.paid {n k : Nat} {s t : σ} (hrun : Run step n s t) (inv : Nat → σ → Prop)
    (hstep : ∀ k s t, inv k s → step s t → ∃ k' < k, inv k' t) (hs : inv k s) :
    ∃ k', k' + n ≤ k ∧ inv k' t := by
  induction hrun with
  | refl s => exact ⟨k, le_refl k, hs⟩
  | tail _ htu ih =>
      obtain ⟨k₁, hle, ht⟩ := ih hs
      obtain ⟨k₂, hlt, hu⟩ := hstep _ _ _ ht htu
      exact ⟨k₂, by omega, hu⟩

end Runs

/-! ### Programs -/

/-- What a program in some state does next. A read is answered with a symbol,
or with nothing at the end of the input. -/
inductive Act (κ α χ : Type) where
  | read (k : Option α → κ)
  | closeIn (next : κ)
  | out (a : α) (next : κ)
  | log (a : α) (next : κ)
  | exit (status : χ)

/-- All that a program does: what it wrote to either stream, what it had not
read when it gave its input up, and the status it left with. -/
structure Behaviour (α χ : Type) where
  out : List α
  log : List α
  unread : List α
  status : χ
  deriving DecidableEq, Repr

section Programs

variable {κ α χ : Type}

/-- In `n` steps the program goes from a state and an input to its exit. A
program that has closed its input has none. -/
inductive Behaves (next : κ → Act κ α χ) :
    κ → Option (List α) → Nat → Behaviour α χ → Prop where
  | read {c : κ} {k : Option α → κ} {a : α} {as : List α} {n : Nat} {b : Behaviour α χ} :
      next c = .read k → Behaves next (k (some a)) (some as) n b →
      Behaves next c (some (a :: as)) (n + 1) b
  | readEnd {c : κ} {k : Option α → κ} {n : Nat} {b : Behaviour α χ} :
      next c = .read k → Behaves next (k none) (some []) n b → Behaves next c (some []) (n + 1) b
  | readClosed {c : κ} {k : Option α → κ} {n : Nat} {b : Behaviour α χ} :
      next c = .read k → Behaves next (k none) none n b → Behaves next c none (n + 1) b
  | closeIn {c c' : κ} {i : Option (List α)} {n : Nat} {b : Behaviour α χ} :
      next c = .closeIn c' → Behaves next c' none n b →
      Behaves next c i (n + 1) { b with unread := i.getD [] }
  | out {c c' : κ} {i : Option (List α)} {a : α} {n : Nat} {b : Behaviour α χ} :
      next c = .out a c' → Behaves next c' i n b →
      Behaves next c i (n + 1) { b with out := a :: b.out }
  | log {c c' : κ} {i : Option (List α)} {a : α} {n : Nat} {b : Behaviour α χ} :
      next c = .log a c' → Behaves next c' i n b →
      Behaves next c i (n + 1) { b with log := a :: b.log }
  | exit {c : κ} {i : Option (List α)} {status : χ} :
      next c = .exit status → Behaves next c i 1 ⟨[], [], i.getD [], status⟩

variable {next : κ → Act κ α χ} {c c' : κ} {i : Option (List α)} {n : Nat} {b : Behaviour α χ}
  {k : Option α → κ} {a : α} {as : List α} {status : χ}

theorem Behaves.pos (h : Behaves next c i n b) : 0 < n := by
  cases h <;> omega

/-! What the next act of a program says about its behaviour. -/

theorem Behaves.of_read (h : Behaves next c (some (a :: as)) n b) (hc : next c = .read k) :
    ∃ m, n = m + 1 ∧ Behaves next (k (some a)) (some as) m b := by
  cases h with
  | read hnext hrest =>
      obtain rfl := Act.read.inj (hnext.symm.trans hc)
      exact ⟨_, rfl, hrest⟩
  | _ => simp_all

theorem Behaves.of_readEnd (h : Behaves next c (some []) n b) (hc : next c = .read k) :
    ∃ m, n = m + 1 ∧ Behaves next (k none) (some []) m b := by
  cases h with
  | readEnd hnext hrest =>
      obtain rfl := Act.read.inj (hnext.symm.trans hc)
      exact ⟨_, rfl, hrest⟩
  | _ => simp_all

theorem Behaves.of_readClosed (h : Behaves next c none n b) (hc : next c = .read k) :
    ∃ m, n = m + 1 ∧ Behaves next (k none) none m b := by
  cases h with
  | readClosed hnext hrest =>
      obtain rfl := Act.read.inj (hnext.symm.trans hc)
      exact ⟨_, rfl, hrest⟩
  | _ => simp_all

theorem Behaves.of_closeIn (h : Behaves next c i n b) (hc : next c = .closeIn c') :
    ∃ m b', n = m + 1 ∧ Behaves next c' none m b' ∧ b = { b' with unread := i.getD [] } := by
  cases h with
  | closeIn hnext hrest =>
      obtain rfl := Act.closeIn.inj (hnext.symm.trans hc)
      exact ⟨_, _, rfl, hrest, rfl⟩
  | _ => simp_all

theorem Behaves.of_out (h : Behaves next c i n b) (hc : next c = .out a c') :
    ∃ m b', n = m + 1 ∧ Behaves next c' i m b' ∧ b = { b' with out := a :: b'.out } := by
  cases h with
  | out hnext hrest =>
      obtain ⟨rfl, rfl⟩ := Act.out.inj (hnext.symm.trans hc)
      exact ⟨_, _, rfl, hrest, rfl⟩
  | _ => simp_all

theorem Behaves.of_log (h : Behaves next c i n b) (hc : next c = .log a c') :
    ∃ m b', n = m + 1 ∧ Behaves next c' i m b' ∧ b = { b' with log := a :: b'.log } := by
  cases h with
  | log hnext hrest =>
      obtain ⟨rfl, rfl⟩ := Act.log.inj (hnext.symm.trans hc)
      exact ⟨_, _, rfl, hrest, rfl⟩
  | _ => simp_all

theorem Behaves.of_exit (h : Behaves next c i n b) (hc : next c = .exit status) :
    n = 1 ∧ b = ⟨[], [], i.getD [], status⟩ := by
  cases h with
  | exit hnext =>
      obtain rfl := Act.exit.inj (hnext.symm.trans hc)
      exact ⟨rfl, rfl⟩
  | _ => simp_all

end Programs

end Lib
