import Mathlib

/-!
Decimal numerals. A numeral is the digits of its number and nothing else, so two
numerals with any other character between them are read back as two numbers.
-/

namespace Lib

theorem isDigit_of_mem_repr {c : Char} {n : Nat} (h : c ∈ Nat.toDigits 10 n) : c.isDigit = true :=
  Nat.isDigit_of_mem_toDigits (by omega) (by omega) h

theorem notMem_repr {c : Char} (hc : c.isDigit = false) (n : Nat) : c ∉ Nat.toDigits 10 n := by
  intro hmem
  rw [isDigit_of_mem_repr hmem] at hc
  cases hc

theorem repr_inj {m n : Nat} (h : Nat.toDigits 10 m = Nat.toDigits 10 n) : m = n := by
  have hvalue := congrArg (fun cs => Nat.ofDigitChars 10 cs 0) h
  simpa using hvalue

/-- Two numerals and what separates them. -/
theorem repr_pair_inj {sep : Char} (hsep : sep.isDigit = false) {m n m' n' : Nat}
    (h : Nat.toDigits 10 m ++ sep :: Nat.toDigits 10 n =
      Nat.toDigits 10 m' ++ sep :: Nat.toDigits 10 n') : m = m' ∧ n = n' := by
  obtain ⟨hleft, -, hright⟩ :=
    (List.append_cons_inj_of_notMem (notMem_repr hsep m) (notMem_repr hsep n)).mp h
  exact ⟨repr_inj hleft, repr_inj hright⟩

end Lib
