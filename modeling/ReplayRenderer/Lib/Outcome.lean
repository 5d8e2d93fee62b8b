import Mathlib

/-!
Results of total programs that can also panic. A call ends with a value,
with a typed error that its caller sees, or with a panic: a failed
assertion, a slice out of range, an arithmetic overflow. Keeping the third
case in the type is what makes "never panics" a statement about a model
and not an assumption of it.

`Proc` adds a state that survives errors, for code that mutates what it
was lent and then fails.
-/

namespace Lib

inductive Outcome (ε α : Type) where
  | ok (a : α)
  | err (e : ε)
  | panic
  deriving DecidableEq, Repr

namespace Outcome

variable {ε ε' α β γ : Type}

protected def bind (x : Outcome ε α) (f : α → Outcome ε β) : Outcome ε β :=
  match x with
  | .ok a => f a
  | .err e => .err e
  | .panic => .panic

instance : Monad (Outcome ε) where
  pure := .ok
  bind := Outcome.bind

@[simp] theorem pure_eq (a : α) : (pure a : Outcome ε α) = .ok a := rfl

@[simp] theorem ok_bind (a : α) (f : α → Outcome ε β) :
    (Outcome.ok a >>= f) = f a := rfl

@[simp] theorem err_bind (e : ε) (f : α → Outcome ε β) :
    (Outcome.err e >>= f) = .err e := rfl

@[simp] theorem panic_bind (f : α → Outcome ε β) :
    (Outcome.panic >>= f) = .panic := rfl

instance : LawfulMonad (Outcome ε) :=
  LawfulMonad.mk' (Outcome ε) (by intro α x; cases x <;> rfl)
    (by intro α β a f; rfl) (by intro α β γ x f g; cases x <;> rfl)

theorem ok_ne_err {a : α} {e : ε} : (.ok a : Outcome ε α) ≠ .err e := by simp

theorem bind_eq_ok {x : Outcome ε α} {f : α → Outcome ε β} {b : β} :
    (x >>= f) = .ok b ↔ ∃ a, x = .ok a ∧ f a = .ok b := by
  cases x <;> simp

theorem bind_eq_err {x : Outcome ε α} {f : α → Outcome ε β} {e : ε} :
    (x >>= f) = .err e ↔ x = .err e ∨ ∃ a, x = .ok a ∧ f a = .err e := by
  cases x <;> simp

theorem bind_eq_panic {x : Outcome ε α} {f : α → Outcome ε β} :
    (x >>= f) = .panic ↔ x = .panic ∨ ∃ a, x = .ok a ∧ f a = .panic := by
  cases x <;> simp

theorem bind_ne_err {x : Outcome ε α} {f : α → Outcome ε β} {e : ε} (hx : x ≠ .err e)
    (hf : ∀ a, f a ≠ .err e) : (x >>= f) ≠ .err e := by
  rw [Ne, bind_eq_err]
  rintro (h | ⟨a, -, h⟩)
  · exact hx h
  · exact hf a h

/-- An early `return Err(e)` guarded by `p`. -/
def rejectIf (p : Prop) [Decidable p] (e : ε) : Outcome ε Unit :=
  if p then .err e else .ok ()

@[simp] theorem rejectIf_eq_ok {p : Prop} [Decidable p] {e : ε} {u : Unit} :
    rejectIf p e = .ok u ↔ ¬p := by
  unfold rejectIf
  split <;> simp [*]

@[simp] theorem rejectIf_eq_err {p : Prop} [Decidable p] {e e' : ε} :
    rejectIf p e = .err e' ↔ p ∧ e = e' := by
  unfold rejectIf
  split <;> simp [*]

@[simp] theorem rejectIf_ne_panic {p : Prop} [Decidable p] {e : ε} :
    rejectIf p e ≠ .panic := by
  unfold rejectIf
  split <;> simp

theorem rejectIf_neg {p : Prop} [Decidable p] {e : ε} (h : ¬p) :
    rejectIf p e = .ok () := if_neg h

theorem rejectIf_pos {p : Prop} [Decidable p] {e : ε} (h : p) :
    rejectIf p e = .err e := if_pos h

/-- `assert!(p)`. -/
def require (p : Prop) [Decidable p] : Outcome ε Unit :=
  if p then .ok () else .panic

@[simp] theorem require_eq_ok {p : Prop} [Decidable p] {u : Unit} :
    (require p : Outcome ε Unit) = .ok u ↔ p := by
  unfold require
  split <;> simp [*]

@[simp] theorem require_ne_err {p : Prop} [Decidable p] {e : ε} :
    (require p : Outcome ε Unit) ≠ .err e := by
  unfold require
  split <;> simp

theorem require_pos {p : Prop} [Decidable p] (h : p) :
    (require p : Outcome ε Unit) = .ok () := if_pos h

/-- `opt.expect(..)`. -/
def expect : Option α → Outcome ε α
  | some a => .ok a
  | none => .panic

@[simp] theorem expect_some (a : α) : (expect (some a) : Outcome ε α) = .ok a := rfl

@[simp] theorem expect_eq_ok {o : Option α} {a : α} :
    (expect o : Outcome ε α) = .ok a ↔ o = some a := by
  cases o <;> simp [expect]

@[simp] theorem expect_ne_err {o : Option α} {e : ε} : (expect o : Outcome ε α) ≠ .err e := by
  cases o <;> simp [expect]

/-- `opt.ok_or(e)`. -/
def okOr (e : ε) : Option α → Outcome ε α
  | some a => .ok a
  | none => .err e

@[simp] theorem okOr_eq_ok {e : ε} {o : Option α} {a : α} :
    okOr e o = .ok a ↔ o = some a := by
  cases o <;> simp [okOr]

/-- `r.map_err(f)`. -/
def mapErr (f : ε → ε') : Outcome ε α → Outcome ε' α
  | .ok a => .ok a
  | .err e => .err (f e)
  | .panic => .panic

@[simp] theorem mapErr_eq_ok {f : ε → ε'} {x : Outcome ε α} {a : α} :
    mapErr f x = .ok a ↔ x = .ok a := by
  cases x <;> simp [mapErr]

/-- `r.expect(..)` of a `Result`. -/
def unwrap : Outcome ε α → Outcome ε' α
  | .ok a => .ok a
  | _ => .panic

@[simp] theorem unwrap_ok (a : α) : (unwrap (.ok a : Outcome ε α) : Outcome ε' α) = .ok a := rfl

/-- `r.unwrap_or(a)`: an error is replaced, a panic is not. -/
def unwrapOr (d : α) : Outcome ε α → Outcome ε' α
  | .ok a => .ok a
  | .err _ => .ok d
  | .panic => .panic

@[simp] theorem unwrapOr_ne_err {d : α} {x : Outcome ε α} {e : ε'} :
    (unwrapOr d x : Outcome ε' α) ≠ .err e := by
  cases x <;> simp [unwrapOr]

/-- `r.is_ok_and(p)`. -/
def isOkAnd (p : α → Bool) : Outcome ε α → Bool
  | .ok a => p a
  | _ => false

theorem isOkAnd_iff {p : α → Bool} {x : Outcome ε α} :
    isOkAnd p x = true ↔ ∃ a, x = .ok a ∧ p a = true := by
  cases x <;> simp [isOkAnd]

/-- A `Result` of code that does not panic. -/
def ofExcept : Except ε α → Outcome ε α
  | .ok a => .ok a
  | .error e => .err e

@[simp] theorem ofExcept_eq_ok {x : Except ε α} {a : α} :
    ofExcept x = .ok a ↔ x = .ok a := by
  cases x <;> simp [ofExcept]

theorem mapM_of_ok {f : α → Outcome ε β} {g : α → β} {as : List α}
    (h : ∀ a ∈ as, f a = .ok (g a)) : as.mapM f = .ok (as.map g) := by
  induction as with
  | nil => rfl
  | cons a as ih =>
      have htail : as.mapM f = .ok (as.map g) := ih fun b hb => h b (List.mem_cons_of_mem _ hb)
      rw [List.mapM_cons, h a List.mem_cons_self, ok_bind, htail, ok_bind, List.map_cons, pure_eq]

end Outcome

/-! ### Checked machine arithmetic -/

def u64Bound : Nat := 2 ^ 64

section Arithmetic

variable {ε : Type}

def u64Add (a b : Nat) : Outcome ε Nat :=
  if a + b < u64Bound then .ok (a + b) else .panic

def u64Mul (a b : Nat) : Outcome ε Nat :=
  if a * b < u64Bound then .ok (a * b) else .panic

def u64Sub (a b : Nat) : Outcome ε Nat :=
  if b ≤ a then .ok (a - b) else .panic

def u32 (n : Nat) : Outcome ε Nat := if n < 2 ^ 32 then .ok n else .panic

def i64 (n : Int) : Outcome ε Int := if -2 ^ 63 ≤ n ∧ n < 2 ^ 63 then .ok n else .panic

theorem u32_of_lt {n : Nat} (h : n < 2 ^ 32) : (u32 n : Outcome ε Nat) = .ok n := if_pos h

theorem i64_of_bounds {n : Int} (hle : -2 ^ 63 ≤ n) (hlt : n < 2 ^ 63) :
    (i64 n : Outcome ε Int) = .ok n := if_pos ⟨hle, hlt⟩

@[simp] theorem u32_eq_ok {n m : Nat} : (u32 n : Outcome ε Nat) = .ok m ↔ n < 2 ^ 32 ∧ n = m := by
  unfold u32
  split <;> simp only [Outcome.ok.injEq, reduceCtorEq, *, true_and, false_and]

theorem u64Add_of_lt {a b : Nat} (h : a + b < u64Bound) :
    (u64Add a b : Outcome ε Nat) = .ok (a + b) := if_pos h

theorem u64Mul_of_lt {a b : Nat} (h : a * b < u64Bound) :
    (u64Mul a b : Outcome ε Nat) = .ok (a * b) := if_pos h

theorem u64Sub_of_le {a b : Nat} (h : b ≤ a) :
    (u64Sub a b : Outcome ε Nat) = .ok (a - b) := if_pos h

@[simp] theorem u64Add_ne_err {a b : Nat} {e : ε} : (u64Add a b : Outcome ε Nat) ≠ .err e := by
  unfold u64Add
  split <;> simp

@[simp] theorem u64Mul_ne_err {a b : Nat} {e : ε} : (u64Mul a b : Outcome ε Nat) ≠ .err e := by
  unfold u64Mul
  split <;> simp

@[simp] theorem u64Sub_ne_err {a b : Nat} {e : ε} : (u64Sub a b : Outcome ε Nat) ≠ .err e := by
  unfold u64Sub
  split <;> simp

@[simp] theorem u64Add_eq_ok {a b c : Nat} :
    (u64Add a b : Outcome ε Nat) = .ok c ↔ a + b < u64Bound ∧ a + b = c := by
  unfold u64Add
  split <;> simp [*]

@[simp] theorem u64Mul_eq_ok {a b c : Nat} :
    (u64Mul a b : Outcome ε Nat) = .ok c ↔ a * b < u64Bound ∧ a * b = c := by
  unfold u64Mul
  split <;> simp [*]

@[simp] theorem u64Sub_eq_ok {a b c : Nat} :
    (u64Sub a b : Outcome ε Nat) = .ok c ↔ b ≤ a ∧ a - b = c := by
  unfold u64Sub
  split <;> simp [*]

end Arithmetic

/-! ### Checked and unchecked -/

/-- `x` ends as `y` does, and not in a panic. With `x` the code as it runs,
every operation checked, and `y` the same code on numbers without bounds,
this says that the bounds do not matter. -/
structure SafeAs {ε α : Type} (x y : Outcome ε α) : Prop where
  eq : x = y
  ne_panic : x ≠ .panic

namespace SafeAs

variable {ε ε' α β : Type}

theorem refl {x : Outcome ε α} (h : x ≠ .panic) : SafeAs x x := ⟨rfl, h⟩

theorem ok {a : α} : SafeAs (.ok a : Outcome ε α) (.ok a) := refl nofun

theorem err {e : ε} : SafeAs (.err e : Outcome ε α) (.err e) := refl nofun

/-- One after the other, where the second may rely on what the first
returned. -/
theorem bind {x y : Outcome ε α} {f g : α → Outcome ε β} (hx : SafeAs x y)
    (h : ∀ a, x = .ok a → SafeAs (f a) (g a)) : SafeAs (x >>= f) (y >>= g) := by
  obtain ⟨rfl, hx⟩ := hx
  cases x with
  | ok a => exact h a rfl
  | err e => exact err
  | panic => exact absurd rfl hx

theorem reject {p : Prop} [Decidable p] {e : ε} {f g : Unit → Outcome ε β}
    (h : ¬p → SafeAs (f ()) (g ())) :
    SafeAs (Outcome.rejectIf p e >>= f) (Outcome.rejectIf p e >>= g) :=
  bind (refl Outcome.rejectIf_ne_panic) fun _ hp => h (Outcome.rejectIf_eq_ok.mp hp)

theorem okOr {e : ε} {o : Option α} {f g : α → Outcome ε β}
    (h : ∀ a, o = some a → SafeAs (f a) (g a)) :
    SafeAs (Outcome.okOr e o >>= f) (Outcome.okOr e o >>= g) := by
  cases o with
  | none => exact err
  | some a => exact h a rfl

theorem expect {o : Option α} {a : α} {f g : α → Outcome ε β} (ho : o = some a)
    (h : SafeAs (f a) (g a)) : SafeAs (Outcome.expect o >>= f) (Outcome.expect o >>= g) := by
  subst ho
  exact h

theorem mapErr {x y : Outcome ε α} {f : ε → ε'} (h : SafeAs x y) :
    SafeAs (Outcome.mapErr f x) (Outcome.mapErr f y) := by
  obtain ⟨rfl, hx⟩ := h
  refine refl fun hp => hx ?_
  cases x with
  | ok a => cases hp
  | err e => cases hp
  | panic => rfl

theorem ofExcept {x : Except ε α} : SafeAs (Outcome.ofExcept x) (Outcome.ofExcept x) := by
  cases x with
  | ok a => exact ok
  | error e => exact err

theorem ite {p : Prop} [Decidable p] {x x' y y' : Outcome ε α} (h : p → SafeAs x y)
    (h' : ¬p → SafeAs x' y') : SafeAs (if p then x else x') (if p then y else y') := by
  by_cases hp : p
  · rw [if_pos hp, if_pos hp]
    exact h hp
  · rw [if_neg hp, if_neg hp]
    exact h' hp

theorem add {a b : Nat} {f : Nat → Outcome ε β} {y : Outcome ε β} (hlt : a + b < u64Bound)
    (h : SafeAs (f (a + b)) y) : SafeAs (u64Add a b >>= f) y := by
  rw [u64Add_of_lt hlt, Outcome.ok_bind]
  exact h

theorem mul {a b : Nat} {f : Nat → Outcome ε β} {y : Outcome ε β} (hlt : a * b < u64Bound)
    (h : SafeAs (f (a * b)) y) : SafeAs (u64Mul a b >>= f) y := by
  rw [u64Mul_of_lt hlt, Outcome.ok_bind]
  exact h

theorem sub {a b : Nat} {f : Nat → Outcome ε β} {y : Outcome ε β} (hle : b ≤ a)
    (h : SafeAs (f (a - b)) y) : SafeAs (u64Sub a b >>= f) y := by
  rw [u64Sub_of_le hle, Outcome.ok_bind]
  exact h

end SafeAs

/-! ### Loops over an indexed list -/

section Loops

variable {ε α : Type}

/-- `for (i, x) in xs.iter().enumerate() { check(i, x)?; }`, counting from
`i`. -/
def forEnumerate (check : Nat → α → Outcome ε Unit) : Nat → List α → Outcome ε Unit
  | _, [] => .ok ()
  | i, x :: xs => do
    check i x
    forEnumerate check (i + 1) xs

/-- A checking loop passes exactly when every position passes. -/
theorem forEnumerate_eq_ok {check : Nat → α → Outcome ε Unit} {i : Nat}
    {xs : List α} :
    forEnumerate check i xs = .ok () ↔
      ∀ k x, xs[k]? = some x → check (i + k) x = .ok () := by
  induction xs generalizing i with
  | nil => simp [forEnumerate]
  | cons y ys ih =>
      simp only [forEnumerate, Outcome.bind_eq_ok, ih]
      constructor
      · rintro ⟨_, hy, hys⟩ k x hk
        cases k with
        | zero =>
            obtain rfl : y = x := by simpa using hk
            exact hy
        | succ k =>
            rw [show i + (k + 1) = i + 1 + k by omega]
            exact hys k x (by simpa using hk)
      · intro h
        refine ⟨(), h 0 y rfl, fun k x hk => ?_⟩
        rw [show i + 1 + k = i + (k + 1) by omega]
        exact h (k + 1) x (by simpa using hk)

/-- A checking loop reports the error of the first position that fails. -/
theorem forEnumerate_eq_err {check : Nat → α → Outcome ε Unit} {i : Nat}
    {xs : List α} {e : ε} :
    forEnumerate check i xs = .err e ↔
      ∃ k x, xs[k]? = some x ∧ check (i + k) x = .err e ∧
        ∀ j < k, ∀ y, xs[j]? = some y → check (i + j) y = .ok () := by
  induction xs generalizing i with
  | nil => simp [forEnumerate]
  | cons y ys ih =>
      simp only [forEnumerate, Outcome.bind_eq_err, ih]
      constructor
      · rintro (hy | ⟨_, hy, k, x, hk, hx, hlt⟩)
        · exact ⟨0, y, rfl, hy, by simp⟩
        · refine ⟨k + 1, x, by simpa using hk, ?_, ?_⟩
          · rwa [show i + (k + 1) = i + 1 + k by omega]
          · intro j hj z hz
            cases j with
            | zero =>
                obtain rfl : y = z := by simpa using hz
                exact hy
            | succ j =>
                rw [show i + (j + 1) = i + 1 + j by omega]
                exact hlt j (by omega) z (by simpa using hz)
      · rintro ⟨k, x, hk, hx, hlt⟩
        cases k with
        | zero =>
            obtain rfl : y = x := by simpa using hk
            exact .inl hx
        | succ k =>
            refine .inr ⟨(), hlt 0 (by omega) y rfl, k, x, by simpa using hk, ?_, ?_⟩
            · rwa [show i + 1 + k = i + (k + 1) by omega]
            · intro j hj z hz
              rw [show i + 1 + j = i + (j + 1) by omega]
              exact hlt (j + 1) (by omega) z (by simpa using hz)

theorem forEnumerate_ne_panic {check : Nat → α → Outcome ε Unit} {i : Nat}
    {xs : List α} (h : ∀ k x, xs[k]? = some x → check (i + k) x ≠ .panic) :
    forEnumerate check i xs ≠ .panic := by
  induction xs generalizing i with
  | nil => simp [forEnumerate]
  | cons y ys ih =>
      intro hp
      rcases Outcome.bind_eq_panic.mp hp with hy | ⟨_, _, hys⟩
      · exact h 0 y rfl hy
      · refine ih (fun k x hk => ?_) hys
        rw [show i + 1 + k = i + (k + 1) by omega]
        exact h (k + 1) x (by simpa using hk)

/-- The check `x` over `xs` passes when `holds` holds at every position, and
fails with an error of the first position where it does not. -/
structure Decides (x : Outcome ε Unit) (xs : List α) (holds : Nat → α → Prop)
    (failsWith : Nat → α → ε → Prop) : Prop where
  ok_iff : x = .ok () ↔ ∀ (i : Nat) (a : α), xs[i]? = some a → holds i a
  err : ∀ e, x = .err e → ∃ (i : Nat) (a : α), xs[i]? = some a ∧ ¬holds i a ∧
    (∀ j < i, ∀ a', xs[j]? = some a' → holds j a') ∧ failsWith i a e
  ne_panic : x ≠ .panic

/-- The first position where it does not hold is the one reported. -/
theorem Decides.fails_at {x : Outcome ε Unit} {xs : List α} {holds : Nat → α → Prop}
    {failsWith : Nat → α → ε → Prop} (hx : Decides x xs holds failsWith) {i : Nat} {a : α}
    (hi : xs[i]? = some a) (hnot : ¬holds i a)
    (hbefore : ∀ j < i, ∀ a', xs[j]? = some a' → holds j a') :
    ∃ e, x = .err e ∧ failsWith i a e := by
  cases hcase : x with
  | ok u => exact absurd (hx.ok_iff.mp hcase i a hi) hnot
  | panic => exact absurd hcase hx.ne_panic
  | err e =>
      obtain ⟨j, b, hj, hnotj, hbeforej, hfails⟩ := hx.err e hcase
      rcases Nat.lt_trichotomy i j with hlt | rfl | hlt
      · exact absurd (hbeforej i hlt a hi) hnot
      · obtain rfl : a = b := Option.some.inj (hi.symm.trans hj)
        exact ⟨e, rfl, hfails⟩
      · exact absurd (hbefore j hlt b hj) hnotj

theorem forEnumerate_decides {check : Nat → α → Outcome ε Unit} {xs : List α}
    {holds : Nat → α → Prop} {failsWith : Nat → α → ε → Prop}
    (hok : ∀ (i : Nat) (a : α), xs[i]? = some a → (check i a = .ok () ↔ holds i a))
    (herr : ∀ (i : Nat) (a : α) (e : ε), xs[i]? = some a → check i a = .err e →
      failsWith i a e)
    (hpanic : ∀ (i : Nat) (a : α), xs[i]? = some a → check i a ≠ .panic) :
    Decides (forEnumerate check 0 xs) xs holds failsWith where
  ok_iff := by
    rw [forEnumerate_eq_ok]
    constructor
    · intro h i a ha
      rw [← hok i a ha, ← Nat.zero_add i]
      exact h i a ha
    · intro h i a ha
      rw [Nat.zero_add, hok i a ha]
      exact h i a ha
  err := by
    intro e he
    obtain ⟨i, a, ha, hcheck, hlt⟩ := forEnumerate_eq_err.mp he
    rw [Nat.zero_add] at hcheck
    refine ⟨i, a, ha, ?_, ?_, herr i a e ha hcheck⟩
    · rw [← hok i a ha, hcheck]
      simp
    · intro j hj a' ha'
      rw [← hok j a' ha', ← Nat.zero_add j]
      exact hlt j hj a' ha'
  ne_panic := forEnumerate_ne_panic fun k x hk => by
    rw [Nat.zero_add]
    exact hpanic k x hk

/-- Checks run one after the other, up to the first that fails. -/
def runAll {σ : Type} (run : σ → Outcome ε Unit) : List σ → Outcome ε Unit
  | [] => .ok ()
  | s :: ss => do
    run s
    runAll run ss

theorem runAll_eq_ok {σ : Type} {run : σ → Outcome ε Unit} {ss : List σ} :
    runAll run ss = .ok () ↔ ∀ s ∈ ss, run s = .ok () := by
  induction ss with
  | nil => simp [runAll]
  | cons s ss ih => cases hs : run s <;> simp [runAll, hs, ih]

theorem runAll_of_err {σ : Type} {run : σ → Outcome ε Unit} {pre post : List σ} {s : σ} {e : ε}
    (hpre : ∀ t ∈ pre, run t = .ok ()) (hs : run s = .err e) :
    runAll run (pre ++ s :: post) = .err e := by
  induction pre with
  | nil => rw [List.nil_append, runAll, hs, Outcome.err_bind]
  | cons t pre ih =>
      rw [List.cons_append, runAll, hpre t List.mem_cons_self, Outcome.ok_bind,
        ih fun q hq => hpre q (List.mem_cons_of_mem _ hq)]

/-- Whatever a sequence of checks ends with, other than success, is what one
of them ended with after all before it had passed. -/
theorem runAll_ne_ok {σ : Type} {run : σ → Outcome ε Unit} {ss : List σ}
    {x : Outcome ε Unit} (hx : x ≠ .ok ()) (h : runAll run ss = x) :
    ∃ pre s post, ss = pre ++ s :: post ∧ (∀ t ∈ pre, run t = .ok ()) ∧ run s = x := by
  induction ss with
  | nil => exact absurd h.symm hx
  | cons s ss ih =>
      cases hs : run s with
      | ok u =>
          simp only [runAll, hs, Outcome.ok_bind] at h
          obtain ⟨pre, t, post, rfl, hpre, ht⟩ := ih h
          refine ⟨s :: pre, t, post, rfl, ?_, ht⟩
          intro q hq
          rcases List.mem_cons.mp hq with rfl | hq
          · exact hs
          · exact hpre q hq
      | err e =>
          rw [runAll, hs, Outcome.err_bind] at h
          exact ⟨[], s, ss, rfl, by simp, hs.trans h⟩
      | panic =>
          rw [runAll, hs, Outcome.panic_bind] at h
          exact ⟨[], s, ss, rfl, by simp, hs.trans h⟩

end Loops

/-! ### Procedures with a state that outlives an error -/

/-- A procedure over a mutable state. The state is returned on every path. -/
def Proc (σ ε α : Type) := σ → Outcome ε α × σ

namespace Proc

variable {σ ε α β : Type}

protected def bind (x : Proc σ ε α) (f : α → Proc σ ε β) : Proc σ ε β := fun s =>
  match x s with
  | (.ok a, s') => f a s'
  | (.err e, s') => (.err e, s')
  | (.panic, s') => (.panic, s')

instance : Monad (Proc σ ε) where
  pure a := fun s => (.ok a, s)
  bind := Proc.bind

def gets (f : σ → α) : Proc σ ε α := fun s => (.ok (f s), s)

def modify (f : σ → σ) : Proc σ ε Unit := fun s => (.ok (), f s)

def lift (x : Outcome ε α) : Proc σ ε α := fun s => (x, s)

/-- `match x() { Ok(a) => .., Err(e) => .. }`: an error is a value. -/
def attempt {ε' : Type} (x : Proc σ ε α) : Proc σ ε' (Except ε α) := fun s =>
  match x s with
  | (.ok a, s') => (.ok (.ok a), s')
  | (.err e, s') => (.ok (.error e), s')
  | (.panic, s') => (.panic, s')

@[simp] theorem pure_apply (a : α) (s : σ) :
    (pure a : Proc σ ε α) s = (.ok a, s) := rfl

@[simp] theorem gets_apply (f : σ → α) (s : σ) :
    (gets f : Proc σ ε α) s = (.ok (f s), s) := rfl

@[simp] theorem lift_apply (x : Outcome ε α) (s : σ) :
    (lift x : Proc σ ε α) s = (x, s) := rfl

theorem bind_apply (x : Proc σ ε α) (f : α → Proc σ ε β) (s : σ) :
    (x >>= f) s = match x s with
      | (.ok a, s') => f a s'
      | (.err e, s') => (.err e, s')
      | (.panic, s') => (.panic, s') := rfl

theorem bind_apply_ok {x : Proc σ ε α} {f : α → Proc σ ε β} {s s' : σ} {a : α}
    (h : x s = (.ok a, s')) : (x >>= f) s = f a s' := by
  rw [bind_apply, h]

theorem lift_bind_apply {x : Outcome ε α} {f : α → Proc σ ε β} {s : σ} {a : α}
    (h : x = .ok a) : (lift x >>= f) s = f a s := by
  rw [bind_apply, lift_apply, h]

theorem bind_apply_err {x : Proc σ ε α} {f : α → Proc σ ε β} {s s' : σ} {e : ε}
    (h : x s = (.err e, s')) : (x >>= f) s = (.err e, s') := by
  rw [bind_apply, h]

theorem bind_apply_panic {x : Proc σ ε α} {f : α → Proc σ ε β} {s s' : σ}
    (h : x s = (.panic, s')) : (x >>= f) s = (.panic, s') := by
  rw [bind_apply, h]

theorem bind_eq_ok {x : Proc σ ε α} {f : α → Proc σ ε β} {s s'' : σ} {b : β} :
    (x >>= f) s = (.ok b, s'') ↔
      ∃ a s', x s = (.ok a, s') ∧ f a s' = (.ok b, s'') := by
  rw [bind_apply]
  rcases x s with ⟨_ | _ | _, s'⟩ <;> simp

/-- Through the view `π` of its state, `x` is `y`: the same result, and the
state `y` leaves. -/
def Simulates {τ : Type} (π : σ → τ) (x : Proc σ ε α) (y : Proc τ ε α) : Prop :=
  ∀ s, (x s).1 = (y (π s)).1 ∧ π (x s).2 = (y (π s)).2

namespace Simulates

variable {τ : Type} {π : σ → τ}

/-- A run of `y` from a view, by the run of `x` it is. -/
theorem apply_view {x : Proc σ ε α} {y : Proc τ ε α} (hx : Simulates π x y) (s : σ) :
    y (π s) = ((x s).1, π (x s).2) :=
  Prod.ext (hx s).1.symm (hx s).2.symm

theorem pure (a : α) : Simulates π (Pure.pure a : Proc σ ε α) (Pure.pure a) :=
  fun _ => ⟨rfl, rfl⟩

theorem lift (x : Outcome ε α) : Simulates π (Proc.lift x) (Proc.lift x) :=
  fun _ => ⟨rfl, rfl⟩

theorem gets {f : σ → α} {g : τ → α} (h : ∀ s, f s = g (π s)) :
    Simulates π (Proc.gets f : Proc σ ε α) (Proc.gets g) :=
  fun s => ⟨congrArg Outcome.ok (h s), rfl⟩

theorem attempt {ε' : Type} {x : Proc σ ε α} {y : Proc τ ε α} (hx : Simulates π x y) :
    Simulates π (Proc.attempt x : Proc σ ε' (Except ε α)) (Proc.attempt y) := by
  intro s
  rw [Proc.attempt, Proc.attempt, hx.apply_view]
  rcases x s with ⟨a, s'⟩
  cases a with
  | ok a => exact ⟨rfl, rfl⟩
  | err e => exact ⟨rfl, rfl⟩
  | panic => exact ⟨rfl, rfl⟩

theorem bind {x : Proc σ ε α} {y : Proc τ ε α} {f : α → Proc σ ε β} {g : α → Proc τ ε β}
    (hx : Simulates π x y) (hf : ∀ a, Simulates π (f a) (g a)) :
    Simulates π (x >>= f) (y >>= g) := by
  intro s
  rw [bind_apply, bind_apply, hx.apply_view]
  rcases x s with ⟨a, s'⟩
  cases a with
  | ok a => exact hf a s'
  | err e => exact ⟨rfl, rfl⟩
  | panic => exact ⟨rfl, rfl⟩

end Simulates

end Proc

end Lib
