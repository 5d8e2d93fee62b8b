import ReplayRenderer.Lib.Outcome

/-!
Counting loops over flat arrays. A flat array of cells of one size is the
concatenation of what its cells hold, so a loop that appends or overwrites
cell after cell is settled by what it holds after `i` of them.
-/

namespace Lib

variable {ε α : Type}

/-- `for i in 0..n`, with `a` the state ahead of the loop. -/
def forRange (body : Nat → α → Outcome ε α) (a : α) : Nat → Outcome ε α
  | 0 => .ok a
  | n + 1 => do
    let a ← forRange body a n
    body n a

/-- The rule of the loop: an invariant that counts the passes. -/
theorem forRange_inv {body : Nat → α → Outcome ε α} {P : Nat → α → Prop} {a : α} {n : Nat}
    (hstart : P 0 a)
    (hstep : ∀ i < n, ∀ a, P i a → ∃ a', body i a = .ok a' ∧ P (i + 1) a') :
    ∃ a', forRange body a n = .ok a' ∧ P n a' := by
  induction n with
  | zero => exact ⟨a, rfl, hstart⟩
  | succ n ih =>
      obtain ⟨b, hprev, hb⟩ := ih fun i hi => hstep i (Nat.lt_succ_of_lt hi)
      obtain ⟨c, hlast, hc⟩ := hstep n (Nat.lt_succ_self n) b hb
      exact ⟨c, by rw [forRange, hprev, Outcome.ok_bind, hlast], hc⟩

/-- Where the states are known: `f i` is the one after `i` passes. -/
theorem forRange_eq (body : Nat → α → Outcome ε α) (f : Nat → α) {n : Nat}
    (hstep : ∀ i < n, body i (f i) = .ok (f (i + 1))) :
    forRange body (f 0) n = .ok (f n) := by
  have hpass : ∀ i < n, ∀ a, a = f i → ∃ a', body i a = .ok a' ∧ a' = f (i + 1) := by
    rintro i hi _ rfl
    exact ⟨_, hstep i hi, rfl⟩
  obtain ⟨_, hloop, rfl⟩ := forRange_inv (P := fun i a => a = f i) rfl hpass
  exact hloop

/-- `for i in lo..hi` over signed integers. -/
def forInt (body : Int → α → Outcome ε α) (a : α) (lo hi : Int) : Outcome ε α :=
  forRange (fun i => body (lo + i)) a (hi - lo).toNat

/-- `for (i, b) in bs.iter().enumerate()`, counting from `i`. -/
def forEach {β : Type} (body : Nat → β → α → Outcome ε α) : Nat → List β → α → Outcome ε α
  | _, [], a => .ok a
  | i, b :: bs, a => do
    let a ← body i b a
    forEach body (i + 1) bs a

theorem forEach_inv {β : Type} {body : Nat → β → α → Outcome ε α} {P : Nat → α → Prop} {i : Nat}
    {bs : List β} {a : α} (hstart : P i a)
    (hstep : ∀ j b, bs[j]? = some b → ∀ a, P (i + j) a →
      ∃ a', body (i + j) b a = .ok a' ∧ P (i + j + 1) a') :
    ∃ a', forEach body i bs a = .ok a' ∧ P (i + bs.length) a' := by
  induction bs generalizing i a with
  | nil => exact ⟨a, rfl, hstart⟩
  | cons b bs ih =>
      obtain ⟨a₁, hhead, h₁⟩ := hstep 0 b rfl a hstart
      have hrest : ∀ j c, bs[j]? = some c → ∀ a, P (i + 1 + j) a →
          ∃ a', body (i + 1 + j) c a = .ok a' ∧ P (i + 1 + j + 1) a' := by
        intro j c hc
        rw [Nat.add_right_comm i 1 j, Nat.add_assoc i j 1]
        exact hstep (j + 1) c hc
      obtain ⟨a₂, htail, h₂⟩ := ih h₁ hrest
      refine ⟨a₂, ?_, ?_⟩
      · rw [forEach, show body i b a = .ok a₁ from hhead, Outcome.ok_bind, htail]
      · rw [List.length_cons, Nat.add_comm bs.length 1, ← Nat.add_assoc]
        exact h₂

/-- `buf[i..j].copy_from_slice(src)`. -/
def copyFromSlice (buf : List α) (i j : Nat) (src : List α) : Outcome ε (List α) :=
  if i ≤ j ∧ j ≤ buf.length ∧ src.length = j - i then
    .ok (buf.take i ++ src ++ buf.drop j)
  else
    .panic

/-- Overwriting in range, element by element. -/
theorem exists_copyFromSlice {buf src : List α} {i : Nat} (hroom : i + src.length ≤ buf.length) :
    ∃ buf', (copyFromSlice buf i (i + src.length) src : Outcome ε (List α)) = .ok buf' ∧
      buf'.length = buf.length ∧
      ∀ j, buf'[j]? = if i ≤ j ∧ j < i + src.length then src[j - i]? else buf[j]? := by
  refine ⟨_, if_pos ⟨Nat.le_add_right _ _, hroom, (Nat.add_sub_cancel_left _ _).symm⟩, ?_, ?_⟩
  · simp only [List.length_append, List.length_take, List.length_drop]
    omega
  · intro j
    have htake : (buf.take i).length = i := by
      rw [List.length_take]
      omega
    rw [List.append_assoc]
    by_cases hlt : j < i
    · rw [List.getElem?_append_left (by omega), List.getElem?_take, if_pos hlt,
        if_neg (by omega)]
    · rw [List.getElem?_append_right (by omega), htake]
      by_cases hin : j < i + src.length
      · rw [List.getElem?_append_left (by omega), if_pos (by omega)]
      · rw [List.getElem?_append_right (by omega), List.getElem?_drop, if_neg (by omega)]
        congr 1
        omega

/-- Overwriting one of the fields that a stretch of the buffer is made of. -/
theorem copyFromSlice_field {pre post old src : List α} {fields : List (List α)} {i j k : Nat}
    (hold : fields[k]? = some old) (hlen : src.length = old.length)
    (hi : pre.length + (fields.take k).flatten.length = i) (hj : i + src.length = j) :
    (copyFromSlice (pre ++ (fields.flatten ++ post)) i j src : Outcome ε (List α)) =
      .ok (pre ++ ((fields.set k src).flatten ++ post)) := by
  obtain ⟨hk, rfl⟩ := List.getElem?_eq_some_iff.mp hold
  have hbefore : (pre ++ (fields.take k).flatten).length = i := by
    rw [List.length_append, hi]
  have hbytes : pre ++ (fields.flatten ++ post) =
      (pre ++ (fields.take k).flatten) ++
        (fields[k] ++ ((fields.drop (k + 1)).flatten ++ post)) := by
    have hsplit : fields = fields.take k ++ fields[k] :: fields.drop (k + 1) := by
      rw [← List.drop_eq_getElem_cons hk, List.take_append_drop]
    have hflat := congrArg List.flatten hsplit
    rw [List.flatten_append, List.flatten_cons] at hflat
    simp only [hflat, List.append_assoc]
  rw [hbytes, copyFromSlice, if_pos, List.take_left' hbefore, ← hj, ← List.drop_drop,
    List.drop_left' hbefore, hlen, List.drop_left, List.set_eq_take_append_cons_drop, if_pos hk]
  · simp
  · simp only [List.length_append] at hbefore ⊢
    omega

theorem take_drop_congr {xs ys : List α} {i j k : Nat} (h : ∀ d < k, xs[i + d]? = ys[j + d]?) :
    (xs.drop i).take k = (ys.drop j).take k := by
  apply List.ext_getElem?
  intro d
  rw [List.getElem?_take, List.getElem?_take, List.getElem?_drop, List.getElem?_drop]
  by_cases hd : d < k
  · rw [if_pos hd, if_pos hd, h d hd]
  · rw [if_neg hd, if_neg hd]

def cells (n : Nat) (p : Nat → List α) : List α := (List.range n).flatMap p

def cell (k : Nat) (xs : List α) (i : Nat) : List α := (xs.drop (i * k)).take k

section Cells

variable {n k : Nat} {p q : Nat → List α} {xs : List α}

theorem cells_zero (p : Nat → List α) : cells 0 p = [] := rfl

theorem cells_succ (n : Nat) (p : Nat → List α) : cells (n + 1) p = cells n p ++ p n := by
  rw [cells, List.range_succ, List.flatMap_append, List.flatMap_singleton, cells]

theorem cells_congr (h : ∀ i < n, p i = q i) : cells n p = cells n q :=
  List.flatMap_congr fun i hi => h i (List.mem_range.mp hi)

theorem cells_add (m n : Nat) (p : Nat → List α) :
    cells (m + n) p = cells m p ++ cells n fun i => p (m + i) := by
  induction n with
  | zero => rw [Nat.add_zero, cells_zero, List.append_nil]
  | succ n ih => rw [← Nat.add_assoc, cells_succ, cells_succ, ih, List.append_assoc]

theorem cells_replicate (n k : Nat) (a : α) :
    (cells n fun _ => List.replicate k a) = List.replicate (n * k) a := by
  induction n with
  | zero => rw [cells_zero, Nat.zero_mul, List.replicate_zero]
  | succ n ih => rw [cells_succ, ih, List.replicate_append_replicate, Nat.succ_mul]

theorem length_cells (hp : ∀ i < n, (p i).length = k) : (cells n p).length = n * k := by
  induction n with
  | zero => simp [cells]
  | succ n ih =>
      rw [cells_succ, List.length_append, ih fun i hi => hp i (Nat.lt_succ_of_lt hi),
        hp n (Nat.lt_succ_self n), Nat.succ_mul]

theorem cell_cells (hp : ∀ i < n, (p i).length = k) {i : Nat} (hi : i < n) :
    cell k (cells n p) i = p i := by
  induction n with
  | zero => exact absurd hi (Nat.not_lt_zero i)
  | succ n ih =>
      have hprev : ∀ i < n, (p i).length = k := fun i hi => hp i (Nat.lt_succ_of_lt hi)
      have hlen := length_cells hprev
      rw [cells_succ, cell]
      rcases (Nat.lt_succ_iff.mp hi).lt_or_eq with hlt | rfl
      · have hroom : i * k + k ≤ n * k := by
          rw [← Nat.succ_mul]
          exact Nat.mul_le_mul_right k hlt
        rw [List.drop_append_of_le_length (by omega), List.take_append_of_le_length (by
          rw [List.length_drop]; omega)]
        exact ih hprev hlt
      · rw [List.drop_left' hlen, List.take_of_length_le (hp i hi).le]

theorem cells_cell (hxs : xs.length = n * k) : cells n (cell k xs) = xs := by
  induction n generalizing xs with
  | zero => exact (List.eq_nil_of_length_eq_zero (by rwa [Nat.zero_mul] at hxs)).symm
  | succ n ih =>
      rw [Nat.succ_mul] at hxs
      have hprev : (xs.take (n * k)).length = n * k := by
        rw [List.length_take]
        omega
      have hsame : cells n (cell k xs) = cells n (cell k (xs.take (n * k))) := by
        apply cells_congr
        intro i hi
        have hroom : i * k + k ≤ n * k := by
          rw [← Nat.succ_mul]
          exact Nat.mul_le_mul_right k hi
        rw [cell, cell, List.drop_take, List.take_take, Nat.min_eq_left (by omega)]
      have hlast : cell k xs n = xs.drop (n * k) := by
        rw [cell, List.take_of_length_le (by rw [List.length_drop]; omega)]
      rw [cells_succ, hsame, ih hprev, hlast, List.take_append_drop]

theorem length_cell (hxs : xs.length = n * k) {i : Nat} (hi : i < n) :
    (cell k xs i).length = k := by
  have hroom : i * k + k ≤ n * k := by
    rw [← Nat.succ_mul]
    exact Nat.mul_le_mul_right k hi
  rw [cell, List.length_take, List.length_drop]
  omega

theorem cell_cell (xs : List α) {m i j : Nat} (hj : j < m) :
    cell k (cell (m * k) xs i) j = cell k xs (i * m + j) := by
  have hroom : j * k + k ≤ m * k := by
    rw [← Nat.succ_mul]
    exact Nat.mul_le_mul_right k hj
  rw [cell, cell, cell, List.drop_take, List.take_take, List.drop_drop, Nat.min_eq_left (by omega),
    Nat.add_mul, Nat.mul_assoc]

theorem length_flatten_of_cells {xss : List (List α)} (h : ∀ xs ∈ xss, xs.length = k) :
    xss.flatten.length = xss.length * k := by
  induction xss with
  | nil => simp
  | cons xs xss ih =>
      rw [List.flatten_cons, List.length_append, h xs List.mem_cons_self,
        ih fun ys hys => h ys (List.mem_cons_of_mem _ hys), List.length_cons, Nat.succ_mul,
        Nat.add_comm]

/-- What was written piece by piece, cut at the size of the pieces. -/
theorem cell_flatten {xss : List (List α)} (h : ∀ xs ∈ xss, xs.length = k) {i : Nat}
    (hi : xss[i]? = some xs) : cell k xss.flatten i = xs := by
  induction xss generalizing i with
  | nil => simp at hi
  | cons ys xss ih =>
      have hys : ys.length = k := h ys List.mem_cons_self
      rw [cell, List.flatten_cons]
      cases i with
      | zero =>
          obtain rfl : ys = xs := by simpa using hi
          rw [Nat.zero_mul, List.drop_zero, List.take_left' hys]
      | succ i =>
          have hrest := ih (fun zs hzs => h zs (List.mem_cons_of_mem _ hzs)) (by simpa using hi)
          have hskip : (i + 1) * k = ys.length + i * k := by rw [hys, Nat.succ_mul, Nat.add_comm]
          rw [hskip, ← List.drop_drop, List.drop_left, ← cell, hrest]

theorem copyFromSlice_append {ys zs src : List α} {i : Nat} (hi : ys.length = i)
    (hsrc : src.length ≤ zs.length) :
    (copyFromSlice (ys ++ zs) i (i + src.length) src : Outcome ε (List α)) =
      .ok (ys ++ src ++ zs.drop src.length) := by
  rw [copyFromSlice, if_pos, List.take_left' hi, ← List.drop_drop, List.drop_left' hi]
  rw [List.length_append]
  omega

/-- Overwriting cell `i` of a buffer whose first `i` cells are done. -/
theorem copyFromSlice_cells (hxs : xs.length = n * k) (hp : ∀ i < n, (p i).length = k) {i : Nat}
    (hi : i < n) :
    (copyFromSlice (cells i p ++ xs.drop (i * k)) (i * k) (i * k + k) (p i) :
      Outcome ε (List α)) = .ok (cells (i + 1) p ++ xs.drop ((i + 1) * k)) := by
  have hlen := length_cells fun j (hj : j < i) => hp j (hj.trans hi)
  have hroom : i * k + k ≤ n * k := by
    rw [← Nat.succ_mul]
    exact Nat.mul_le_mul_right k hi
  have hsrc : (p i).length ≤ (xs.drop (i * k)).length := by
    rw [List.length_drop, hp i hi]
    omega
  have hcopy := copyFromSlice_append (ε := ε) hlen hsrc
  rw [hp i hi, List.drop_drop, ← cells_succ] at hcopy
  rw [hcopy, Nat.succ_mul]

end Cells

end Lib
