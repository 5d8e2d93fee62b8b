import Mathlib

/-!
Binary search on a budget. Positions below a boundary are good and the rest
are bad; a probe tells which, and costs one unit. A bracket
`first .. first + size` holds every place the boundary can still be: a good
probe moves its lower end past the probe, a bad one moves its upper end to
the probe. Where in the bracket to probe is a parameter.

Budget may run out at any probe, so the facts are about every intermediate
bracket: it always holds the boundary, it is a point when budget is left
over, and, for the search that probes the lower middle, it is known exactly
which budgets leave its upper end where it was, and which bring it down to
the boundary.
-/

namespace Lib

/-- Where the boundary can still be, and the budget that is left. -/
structure Bracket where
  first : Nat
  size : Nat
  left : Nat

def Bracket.last (b : Bracket) : Nat := b.first + b.size

/-- Search a bracket with a budget; `split m` is where to probe in a bracket
of size `m`. -/
def search (split : Nat → Nat) (good : Nat → Bool) : Nat → Nat → Nat → Bracket
  | 0, first, size => ⟨first, size, 0⟩
  | left + 1, first, size =>
    if size = 0 then ⟨first, 0, left + 1⟩
    else if good (first + split size) then
      search split good left (first + split size + 1) (size - split size - 1)
    else search split good left first (split size)

section Search

variable {split : Nat → Nat} {good : Nat → Bool} {g : Nat}

theorem search_zero (left first : Nat) : search split good left first 0 = ⟨first, 0, left⟩ := by
  cases left with
  | zero => rfl
  | succ left => rw [search, if_pos rfl]

/-- Budget is left over only when the search is done. -/
theorem search_done {left first size : Nat} (h : (search split good left first size).left ≠ 0) :
    (search split good left first size).size = 0 := by
  induction left generalizing first size with
  | zero => exact absurd rfl h
  | succ left ih =>
      by_cases hsize : size = 0
      · rw [hsize, search_zero]
      · rw [search, if_neg hsize] at h ⊢
        by_cases hprobe : good (first + split size) = true
        · rw [if_pos hprobe] at h ⊢
          exact ih h
        · rw [if_neg hprobe] at h ⊢
          exact ih h

/-- The bracket shrinks, and keeps the boundary. -/
theorem search_bracket (hsplit : ∀ m, 0 < m → split m < m) (hgood : ∀ i, good i = true ↔ i < g)
    (left : Nat) {first size : Nat} (hfirst : first ≤ g) (hlast : g ≤ first + size) :
    first ≤ (search split good left first size).first ∧
      (search split good left first size).first ≤ g ∧
      g ≤ (search split good left first size).last ∧
      (search split good left first size).last ≤ first + size := by
  induction left generalizing first size with
  | zero => exact ⟨le_refl first, hfirst, hlast, le_refl (first + size)⟩
  | succ left ih =>
      by_cases hsize : size = 0
      · subst hsize
        rw [search_zero]
        exact ⟨le_refl first, hfirst, hlast, le_refl (first + 0)⟩
      · have hlt := hsplit size (by omega)
        rw [search, if_neg hsize]
        by_cases hprobe : first + split size < g
        · rw [if_pos ((hgood _).mpr hprobe)]
          have hfirst' : first + split size + 1 ≤ g := hprobe
          have hlast' : g ≤ first + split size + 1 + (size - split size - 1) := by omega
          have h := ih hfirst' hlast'
          omega
        · rw [if_neg (mt (hgood _).mp hprobe)]
          have h := ih hfirst (not_lt.mp hprobe)
          omega

variable (split good) in
/-- A search whose probes halve the bracket is done within as many probes as
the size has binary digits. -/
theorem search_fast (hlow : ∀ m, split m ≤ m / 2) (hhigh : ∀ m, m - split m - 1 ≤ m / 2)
    {left size k : Nat} (first : Nat) (hk : size < 2 ^ k) (hleft : k ≤ left) :
    (search split good left first size).size = 0 ∧
      left ≤ (search split good left first size).left + k := by
  induction k generalizing left first size with
  | zero =>
      obtain rfl : size = 0 := by omega
      rw [search_zero]
      exact ⟨rfl, le_refl left⟩
  | succ k ih =>
      obtain ⟨left, rfl⟩ : ∃ l, left = l + 1 := ⟨left - 1, by omega⟩
      by_cases hsize : size = 0
      · rw [hsize, search_zero]
        exact ⟨rfl, Nat.le_add_right _ _⟩
      · have hpow : 2 ^ (k + 1) = 2 * 2 ^ k := by ring
        have hl := hlow size
        have hh := hhigh size
        rw [search, if_neg hsize]
        split
        · have hk' : size - split size - 1 < 2 ^ k := by omega
          have h := ih (first + split size + 1) hk' (Nat.le_of_succ_le_succ hleft)
          exact ⟨h.1, by omega⟩
        · have hk' : split size < 2 ^ k := by omega
          have h := ih first hk' (Nat.le_of_succ_le_succ hleft)
          exact ⟨h.1, by omega⟩

end Search

/-! ### Probing the lower middle -/

def lowerMiddle (m : Nat) : Nat := (m - 1) / 2

/-- How many probes it takes to probe offset `t` in a bracket of size `m`, when
the offsets below `t` are good and the others bad. -/
def probeDepth (m t : Nat) : Nat :=
  if m = 0 then 0
  else if t < lowerMiddle m then probeDepth (lowerMiddle m) t + 1
  else if lowerMiddle m < t then probeDepth (m - lowerMiddle m - 1) (t - lowerMiddle m - 1) + 1
  else 1
termination_by m
decreasing_by
  all_goals
    unfold lowerMiddle at *
    omega

theorem lowerMiddle_lt (m : Nat) (h : 0 < m) : lowerMiddle m < m := by
  unfold lowerMiddle
  omega

theorem lowerMiddle_le_half (m : Nat) : lowerMiddle m ≤ m / 2 := by
  unfold lowerMiddle
  omega

theorem sub_lowerMiddle_le_half (m : Nat) : m - lowerMiddle m - 1 ≤ m / 2 := by
  unfold lowerMiddle
  omega

section LowerMiddle

variable {good : Nat → Bool} {g : Nat} (hgood : ∀ i, good i = true ↔ i < g)

include hgood

/-- The upper end stays where it is exactly as long as every probe is good. -/
theorem search_last_eq_iff (left : Nat) {first : Nat} (size : Nat) (hfirst : first ≤ g) :
    (search lowerMiddle good left first size).last = first + size ↔
      (size - (g - first)) * 2 ^ left ≤ size := by
  induction left generalizing first size with
  | zero =>
      simp only [search, Bracket.last, pow_zero, true_iff]
      omega
  | succ left ih =>
      by_cases hsize : size = 0
      · subst hsize
        simp [search_zero, Bracket.last]
      · have hpow : 2 ^ (left + 1) = 2 * 2 ^ left := by ring
        rw [search, if_neg hsize]
        by_cases hprobe : first + lowerMiddle size < g
        · -- a good probe keeps the upper end and halves what is left
          rw [if_pos ((hgood _).mpr hprobe)]
          have hmid : size - lowerMiddle size - 1 = size / 2 := by
            unfold lowerMiddle
            omega
          have hmid' : lowerMiddle size + size / 2 + 1 = size := by
            unfold lowerMiddle
            omega
          have hfirst' : first + lowerMiddle size + 1 ≤ g := hprobe
          have h := ih (size / 2) hfirst'
          rw [hmid, show first + size = first + lowerMiddle size + 1 + size / 2 by omega, h,
            show size / 2 - (g - (first + lowerMiddle size + 1)) = size - (g - first) by omega,
            Nat.le_div_iff_mul_le (by omega), hpow]
          ring_nf
        · -- a bad one moves it for good
          rw [if_neg (mt (hgood _).mp hprobe)]
          have hlt := lowerMiddle_lt size (by omega)
          have hlast : (search lowerMiddle good left first (lowerMiddle size)).last ≤
              first + lowerMiddle size :=
            (search_bracket lowerMiddle_lt hgood left hfirst (by omega)).2.2.2
          have hwide : size < (size - (g - first)) * 2 := by
            unfold lowerMiddle at hprobe
            omega
          have hpos : 1 ≤ 2 ^ left := Nat.one_le_two_pow
          have hover : size < (size - (g - first)) * 2 ^ (left + 1) := by
            calc
              size < (size - (g - first)) * 2 * 1 := by omega
              _ ≤ (size - (g - first)) * 2 * 2 ^ left := Nat.mul_le_mul_left _ hpos
              _ = (size - (g - first)) * 2 ^ (left + 1) := by rw [hpow, Nat.mul_assoc]
          constructor
          · omega
          · omega

/-- The upper end is at the boundary exactly when the boundary was probed. -/
theorem search_last_eq_boundary_iff {left first size : Nat} (hfirst : first ≤ g)
    (hlast : g < first + size) :
    (search lowerMiddle good left first size).last = g ↔
      probeDepth size (g - first) ≤ left := by
  induction left generalizing first size with
  | zero =>
      have hdepth : probeDepth size (g - first) ≠ 0 := by
        rw [probeDepth, if_neg (by omega)]
        split
        · omega
        · split <;> omega
      simp only [search, Bracket.last]
      omega
  | succ left ih =>
      have hsize : size ≠ 0 := by omega
      have hlt := lowerMiddle_lt size (by omega)
      rw [search, if_neg hsize, probeDepth, if_neg hsize]
      rcases Nat.lt_trichotomy (g - first) (lowerMiddle size) with hcmp | hcmp | hcmp
      · have hprobe : ¬first + lowerMiddle size < g := by omega
        rw [if_neg (mt (hgood _).mp hprobe), if_pos hcmp, ih hfirst (by omega)]
        omega
      · -- the boundary itself is probed here, and stays the upper end
        have hprobe : ¬first + lowerMiddle size < g := by omega
        rw [if_neg (mt (hgood _).mp hprobe), if_neg (by omega), if_neg (by omega)]
        have hlast' : g ≤ first + lowerMiddle size := by omega
        have hbracket := search_bracket lowerMiddle_lt hgood left hfirst hlast'
        omega
      · have hprobe : first + lowerMiddle size < g := by omega
        rw [if_pos ((hgood _).mpr hprobe), if_neg (by omega), if_pos hcmp,
          ih (by omega) (by omega),
          show g - (first + lowerMiddle size + 1) = g - first - lowerMiddle size - 1 by omega]
        omega

/-- With `left` probes in a bracket of size `size`, the upper end stays where
it is or comes down to the boundary, at offset `t`. -/
def UpperSettled (size t left : Nat) : Prop :=
  (size - t) * 2 ^ left ≤ size ∨ (t < size ∧ probeDepth size t ≤ left)

theorem search_upperSettled_iff (left : Nat) {first size : Nat} (hfirst : first ≤ g)
    (hlast : g ≤ first + size) :
    ((search lowerMiddle good left first size).last = first + size ∨
        (search lowerMiddle good left first size).last = g) ↔
      UpperSettled size (g - first) left := by
  have hstays := search_last_eq_iff hgood left size hfirst
  by_cases hg : g < first + size
  · have hoffset : g - first < size := by omega
    rw [UpperSettled, hstays, search_last_eq_boundary_iff hgood hfirst hg]
    simp only [hoffset, true_and]
  · have hoffset : size - (g - first) = 0 := by omega
    have hzero : (size - (g - first)) * 2 ^ left ≤ size := by
      rw [hoffset, Nat.zero_mul]
      exact Nat.zero_le size
    exact ⟨fun _ => .inl hzero, fun _ => .inl (hstays.mpr hzero)⟩

end LowerMiddle

end Lib
