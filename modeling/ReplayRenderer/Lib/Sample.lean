import Mathlib

/-!
Taking some elements of a list by their positions: every `k`-th, or a number
of them spread evenly from the first to the last. The evenly spread positions
are quotients, so that their gaps are two neighbouring numbers.
-/

namespace Lib

variable {α : Type}

/-! ### Every `k`-th element -/

/-- The iterator of `step_by(k)`, with `skip` elements to drop first. -/
def stepFrom (k : Nat) : Nat → List α → List α
  | _, [] => []
  | 0, a :: as => a :: stepFrom k (k - 1) as
  | skip + 1, _ :: as => stepFrom k skip as

/-- `xs.iter().step_by(k)`. -/
def stepBy (k : Nat) (xs : List α) : List α := stepFrom k 0 xs

theorem getElem?_stepFrom {k : Nat} (hk : 0 < k) (skip : Nat) (xs : List α) (i : Nat) :
    (stepFrom k skip xs)[i]? = xs[skip + i * k]? := by
  induction xs generalizing skip i with
  | nil => rw [stepFrom, List.getElem?_nil, List.getElem?_nil]
  | cons a as ih =>
      cases skip with
      | succ skip => rw [stepFrom, ih, Nat.add_right_comm, List.getElem?_cons_succ]
      | zero =>
          rw [stepFrom]
          cases i with
          | zero => rw [Nat.zero_mul, List.getElem?_cons_zero, List.getElem?_cons_zero]
          | succ i =>
              have hindex : 0 + (i + 1) * k = k - 1 + i * k + 1 := by
                rw [Nat.succ_mul]
                omega
              rw [List.getElem?_cons_succ, ih, hindex, List.getElem?_cons_succ]

theorem getElem?_stepBy {k : Nat} (hk : 0 < k) (xs : List α) (i : Nat) :
    (stepBy k xs)[i]? = xs[i * k]? := by
  rw [stepBy, getElem?_stepFrom hk, Nat.zero_add]

/-- No more than `m` are taken when `m` steps reach the end. -/
theorem length_stepBy_le_iff {k : Nat} (hk : 0 < k) {xs : List α} {m : Nat} :
    (stepBy k xs).length ≤ m ↔ xs.length ≤ m * k := by
  rw [← List.getElem?_eq_none_iff, getElem?_stepBy hk, List.getElem?_eq_none_iff]

theorem mem_of_mem_stepBy {k : Nat} (hk : 0 < k) {xs : List α} {a : α} (ha : a ∈ stepBy k xs) :
    a ∈ xs := by
  obtain ⟨i, hi⟩ := List.mem_iff_getElem?.mp ha
  rw [getElem?_stepBy hk] at hi
  exact List.mem_of_getElem? hi

/-! ### Evenly spread positions -/

section Spread

variable {m d : Nat}

/-- Position `i` of `0..=d`, spread over `0..=m`. -/
def spread (m d i : Nat) : Nat := i * m / d

theorem spread_zero : spread m d 0 = 0 := by
  rw [spread, Nat.zero_mul, Nat.zero_div]

theorem spread_last (hd : 0 < d) : spread m d d = m := Nat.mul_div_cancel_left m hd

theorem spread_gap (hd : 0 < d) (i : Nat) :
    spread m d i + m / d ≤ spread m d (i + 1) ∧
      spread m d (i + 1) ≤ spread m d i + m / d + 1 := by
  rw [spread, spread, Nat.succ_mul, Nat.add_div hd]
  split <;> omega

theorem spread_lt_succ (hd : 0 < d) (hdm : d ≤ m) (i : Nat) :
    spread m d i < spread m d (i + 1) := by
  have hstep : 1 ≤ m / d := (Nat.one_le_div_iff hd).mpr hdm
  have hgap := (spread_gap (m := m) hd i).1
  omega

theorem spread_strictMono (hd : 0 < d) (hdm : d ≤ m) : StrictMono (spread m d) :=
  strictMono_nat_of_lt_succ (spread_lt_succ hd hdm)

theorem spread_le {i : Nat} (hi : i ≤ d) : spread m d i ≤ m :=
  Nat.div_le_of_le_mul (Nat.mul_le_mul_right m hi)

end Spread

end Lib
