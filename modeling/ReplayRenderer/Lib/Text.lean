import Mathlib

/-!
Formatted text: hexadecimal numerals as format strings print them, and the
compact JSON rendering, with the quoting of string literals left to a
parameter.
-/

namespace Lib

/-- Lower-case hexadecimal digits of `n`, at least `w` of them. -/
def hexDigits (w n : Nat) : String :=
  let digits := Nat.toDigits 16 n
  String.ofList (List.replicate (w - digits.length) '0' ++ digits)

section HexDigits

variable {w n : Nat}

theorem digitChar_hex {d : Nat} (h : d < 16) :
    ('0' ≤ d.digitChar ∧ d.digitChar ≤ '9') ∨ ('a' ≤ d.digitChar ∧ d.digitChar ≤ 'f') := by
  revert d
  decide

theorem mem_toDigits_hex {c : Char} (h : c ∈ Nat.toDigits 16 n) :
    ('0' ≤ c ∧ c ≤ '9') ∨ ('a' ≤ c ∧ c ≤ 'f') := by
  induction n using Nat.strong_induction_on with
  | _ n ih =>
      rw [Nat.toDigits_eq_if (by decide)] at h
      split at h
      · next hlt =>
          obtain rfl := List.mem_singleton.mp h
          exact digitChar_hex hlt
      · next hge =>
          rcases List.mem_append.mp h with h | h
          · exact ih (n / 16) (by omega) h
          · obtain rfl := List.mem_singleton.mp h
            exact digitChar_hex (Nat.mod_lt _ (by decide))

theorem mem_hexDigits {c : Char} (h : c ∈ (hexDigits w n).toList) :
    ('0' ≤ c ∧ c ≤ '9') ∨ ('a' ≤ c ∧ c ≤ 'f') := by
  rw [hexDigits, String.toList_ofList, List.mem_append] at h
  rcases h with h | h
  · obtain rfl := (List.mem_replicate.mp h).2
    decide
  · exact mem_toDigits_hex h

theorem le_length_hexDigits : w ≤ (hexDigits w n).length := by
  rw [hexDigits, String.length_ofList, List.length_append, List.length_replicate]
  omega

theorem length_hexDigits (hw : 0 < w) (hn : n < 16 ^ w) : (hexDigits w n).length = w := by
  have hle := (Nat.length_toDigits_le_iff (by decide) hw).mpr hn
  rw [hexDigits, String.length_ofList, List.length_append, List.length_replicate]
  omega

def hexDigitValue (c : Char) : Nat :=
  if c ≤ '9' then c.toNat - '0'.toNat else c.toNat - 'a'.toNat + 10

def hexValue (cs : List Char) : Nat :=
  cs.foldl (fun acc c => 16 * acc + hexDigitValue c) 0

theorem hexDigitValue_digitChar {d : Nat} (h : d < 16) : hexDigitValue d.digitChar = d := by
  revert d
  decide

theorem hexValue_concat (cs : List Char) (c : Char) :
    hexValue (cs ++ [c]) = 16 * hexValue cs + hexDigitValue c := by
  simp [hexValue]

theorem hexValue_toDigits (n : Nat) : hexValue (Nat.toDigits 16 n) = n := by
  induction n using Nat.strong_induction_on with
  | _ n ih =>
      rw [Nat.toDigits_eq_if (by decide)]
      split
      · next hlt =>
          rw [← List.nil_append [n.digitChar], hexValue_concat, hexDigitValue_digitChar hlt]
          exact Nat.zero_add n
      · next hge =>
          rw [hexValue_concat, ih (n / 16) (by omega),
            hexDigitValue_digitChar (Nat.mod_lt _ (by decide))]
          omega

theorem hexValue_replicate_zero (k : Nat) (cs : List Char) :
    hexValue (List.replicate k '0' ++ cs) = hexValue cs := by
  induction k with
  | zero => rfl
  | succ k ih => exact ih

/-- A numeral is read back as its number, whatever its width. -/
theorem hexValue_hexDigits : hexValue (hexDigits w n).toList = n := by
  rw [hexDigits, String.toList_ofList, hexValue_replicate_zero, hexValue_toDigits]

theorem hexDigits_injective (w : Nat) : Function.Injective (hexDigits w) := by
  intro m n h
  have hvalue := congrArg (fun s : String => hexValue s.toList) h
  simpa only [hexValue_hexDigits] using hvalue

end HexDigits

/-- The part of JSON that a record of numbers and strings needs. -/
inductive Json where
  | num (n : Nat)
  | str (s : String)
  | obj (fields : List (String × Json))

mutual

def Json.compact (quote : String → String) : Json → String
  | .num n => toString n
  | .str s => quote s
  | .obj fields => "\x7b" ++ Json.compactFields quote fields ++ "\x7d"

def Json.compactFields (quote : String → String) : List (String × Json) → String
  | [] => ""
  | [(k, v)] => quote k ++ ":" ++ Json.compact quote v
  | (k, v) :: rest =>
      quote k ++ ":" ++ Json.compact quote v ++ "," ++ Json.compactFields quote rest

end

end Lib
