import ReplayRenderer.Lib.Grid

/-!
Where a program writes. A state is read at locations, and an operation that
keeps an invariant touches a set of locations when it always returns and
leaves every other location as it was. The sets of operations that follow
each other, or of the passes of a loop, add up, so the footprint of a whole is
read off its parts.

An operation paints a set when it does a given thing to each of its locations
and nothing elsewhere. When doing it twice is doing it once, what is painted by
several operations is the union of what each paints, in any order. A loop that
fills one region a pass and never comes back to an earlier one ends with every
region filled.
-/

namespace Lib

variable {ε σ ι β γ : Type}

/-- The operation keeps `inv`, always returns, and changes what `get` reads
inside `S` only. -/
def Touches (inv : σ → Prop) (get : σ → ι → β) (S : Set ι) (op : σ → Outcome ε σ) : Prop :=
  ∀ s, inv s → ∃ s', op s = .ok s' ∧ inv s' ∧ Set.EqOn (get s') (get s) Sᶜ

namespace Touches

variable {inv : σ → Prop} {get : σ → ι → β} {S T : Set ι} {op op' : σ → Outcome ε σ}

theorem mono (h : Touches inv get S op) (hST : S ⊆ T) : Touches inv get T op := by
  intro s hs
  obtain ⟨s', hop, hs', heq⟩ := h s hs
  exact ⟨s', hop, hs', heq.mono (Set.compl_subset_compl.mpr hST)⟩

theorem nothing : Touches inv get S (Outcome.ok : σ → Outcome ε σ) :=
  fun s hs => ⟨s, rfl, hs, fun _ _ => rfl⟩

theorem seq (h : Touches inv get S op) (h' : Touches inv get S op') :
    Touches inv get S fun s => op s >>= op' := by
  intro s hs
  obtain ⟨s₁, hop, hs₁, heq⟩ := h s hs
  obtain ⟨s₂, hop', hs₂, heq'⟩ := h' s₁ hs₁
  refine ⟨s₂, ?_, hs₂, heq'.trans heq⟩
  show (op s >>= op') = .ok s₂
  rw [hop, Outcome.ok_bind, hop']

/-- One after the other, each in its own place. -/
theorem union (h : Touches inv get S op) (h' : Touches inv get T op') :
    Touches inv get (S ∪ T) fun s => op s >>= op' :=
  (h.mono Set.subset_union_left).seq (h'.mono Set.subset_union_right)

/-- What is computed ahead of an operation and does not fail. -/
theorem after {x : σ → Outcome ε γ} {f : γ → σ → Outcome ε σ} {c : γ}
    (hx : ∀ s, inv s → x s = .ok c) (h : Touches inv get S (f c)) :
    Touches inv get S fun s => x s >>= fun c => f c s := by
  intro s hs
  obtain ⟨s', hop, hs', heq⟩ := h s hs
  refine ⟨s', ?_, hs', heq⟩
  show (x s >>= fun c => f c s) = .ok s'
  rw [hx s hs, Outcome.ok_bind, hop]

theorem ite {p : Prop} [Decidable p] (h : p → Touches inv get S op)
    (h' : ¬p → Touches inv get S op') :
    Touches inv get S fun s => if p then op s else op' s := by
  by_cases hp : p
  · simpa only [if_pos hp] using h hp
  · simpa only [if_neg hp] using h' hp

theorem forRange {body : Nat → σ → Outcome ε σ} {n : Nat}
    (h : ∀ i < n, Touches inv get S (body i)) :
    Touches inv get S fun s => Lib.forRange body s n := by
  intro s hs
  have hloop := forRange_inv (P := fun _ s' => inv s' ∧ Set.EqOn (get s') (get s) Sᶜ)
    ⟨hs, fun _ _ => rfl⟩ fun i hi s' hs' => by
      obtain ⟨s'', hbody, hs'', heq⟩ := h i hi s' hs'.1
      exact ⟨s'', hbody, hs'', heq.trans hs'.2⟩
  obtain ⟨s', hrun, hs', heq⟩ := hloop
  exact ⟨s', hrun, hs', heq⟩

theorem forInt {body : Int → σ → Outcome ε σ} {lo hi : Int}
    (h : ∀ i, lo ≤ i → i < hi → Touches inv get S (body i)) :
    Touches inv get S fun s => Lib.forInt body s lo hi :=
  forRange fun i hi => h (lo + i) (by omega) (by omega)

theorem forEach {body : Nat → γ → σ → Outcome ε σ} {i : Nat} {cs : List γ}
    (h : ∀ j c, cs[j]? = some c → Touches inv get S (body (i + j) c)) :
    Touches inv get S (Lib.forEach body i cs) := by
  intro s hs
  have hloop := forEach_inv (i := i) (P := fun _ s' => inv s' ∧ Set.EqOn (get s') (get s) Sᶜ)
    ⟨hs, fun _ _ => rfl⟩ fun j c hc s' hs' => by
      obtain ⟨s'', hbody, hs'', heq⟩ := h j c hc s' hs'.1
      exact ⟨s'', hbody, hs'', heq.trans hs'.2⟩
  obtain ⟨s', hrun, hs', heq⟩ := hloop
  exact ⟨s', hrun, hs', heq⟩

end Touches

/-- The operation keeps `inv`, always returns, does `g` to what `get` reads
inside `S` and nothing outside. -/
def Paints (inv : σ → Prop) (get : σ → ι → β) (g : ι → β → β) (S : Set ι)
    (op : σ → Outcome ε σ) : Prop :=
  ∀ s, inv s → ∃ s', op s = .ok s' ∧ inv s' ∧ (∀ i ∈ S, get s' i = g i (get s i)) ∧
    Set.EqOn (get s') (get s) Sᶜ

namespace Paints

variable {inv : σ → Prop} {get : σ → ι → β} {g : ι → β → β} {S T : Set ι}
  {op op' : σ → Outcome ε σ}

theorem touches (h : Paints inv get g S op) (hST : S ⊆ T) : Touches inv get T op := by
  refine Touches.mono ?_ hST
  intro s hs
  obtain ⟨s', hop, hs', -, heq⟩ := h s hs
  exact ⟨s', hop, hs', heq⟩

theorem nothing : Paints inv get g ∅ (Outcome.ok : σ → Outcome ε σ) :=
  fun s hs => ⟨s, rfl, hs, fun _ hi => absurd hi (Set.notMem_empty _), fun _ _ => rfl⟩

theorem after {x : σ → Outcome ε γ} {f : γ → σ → Outcome ε σ} {c : γ}
    (hx : ∀ s, inv s → x s = .ok c) (h : Paints inv get g S (f c)) :
    Paints inv get g S fun s => x s >>= fun c => f c s := by
  intro s hs
  obtain ⟨s', hop, hs', heq⟩ := h s hs
  refine ⟨s', ?_, hs', heq⟩
  show (x s >>= fun c => f c s) = .ok s'
  rw [hx s hs, Outcome.ok_bind, hop]

variable (hg : ∀ i b, g i (g i b) = g i b)

include hg

theorem seq (h : Paints inv get g S op) (h' : Paints inv get g T op') :
    Paints inv get g (S ∪ T) fun s => op s >>= op' := by
  intro s hs
  obtain ⟨s₁, hop, hs₁, hin, hout⟩ := h s hs
  obtain ⟨s₂, hop', hs₂, hin', hout'⟩ := h' s₁ hs₁
  refine ⟨s₂, ?_, hs₂, ?_, ?_⟩
  · show (op s >>= op') = .ok s₂
    rw [hop, Outcome.ok_bind, hop']
  · intro i hi
    by_cases hT : i ∈ T
    · rw [hin' i hT]
      by_cases hS : i ∈ S
      · rw [hin i hS, hg]
      · rw [hout hS]
    · rw [hout' hT, hin i (hi.resolve_right hT)]
  · intro i hi
    rw [Set.compl_union] at hi
    rw [hout' hi.2, hout hi.1]

theorem forRange {S : Nat → Set ι} {body : Nat → σ → Outcome ε σ} {n : Nat}
    (h : ∀ i < n, Paints inv get g (S i) (body i)) :
    Paints inv get g {p | ∃ i < n, p ∈ S i} fun s => Lib.forRange body s n := by
  induction n with
  | zero =>
      have hempty : {p | ∃ i < 0, p ∈ S i} = (∅ : Set ι) := by
        ext p
        simp
      rw [hempty]
      exact nothing
  | succ n ih =>
      have hsplit : {p | ∃ i < n + 1, p ∈ S i} = {p | ∃ i < n, p ∈ S i} ∪ S n := by
        ext p
        simp only [Nat.lt_succ_iff_lt_or_eq, or_and_right, exists_or, exists_eq_left,
          Set.mem_union, Set.mem_ofPred_eq]
      rw [hsplit]
      exact seq hg (ih fun i hi => h i (Nat.lt_succ_of_lt hi)) (h n (Nat.lt_succ_self n))

theorem forInt {S : Int → Set ι} {body : Int → σ → Outcome ε σ} {lo hi : Int}
    (h : ∀ i, lo ≤ i → i < hi → Paints inv get g (S i) (body i)) :
    Paints inv get g {p | ∃ i, (lo ≤ i ∧ i < hi) ∧ p ∈ S i} fun s => Lib.forInt body s lo hi := by
  have hindex : {p | ∃ i, (lo ≤ i ∧ i < hi) ∧ p ∈ S i} =
      {p | ∃ d < (hi - lo).toNat, p ∈ S (lo + d)} := by
    ext p
    constructor
    · rintro ⟨i, hi, hp⟩
      refine ⟨(i - lo).toNat, by omega, ?_⟩
      rwa [Int.toNat_of_nonneg (by omega), add_sub_cancel]
    · rintro ⟨d, hd, hp⟩
      exact ⟨lo + d, by omega, hp⟩
  rw [hindex]
  exact forRange hg fun d hd => h (lo + d) (by omega) (by omega)

end Paints

/-- The pass of element `i` fills its region `R i` and leaves the regions of
the elements before it: at the end every region holds what it was filled
with. -/
theorem forEach_fills {inv : σ → Prop} {get : σ → ι → β} {R : Nat → γ → Set ι}
    {fill : Nat → γ → ι → β} {body : Nat → γ → σ → Outcome ε σ} {cs : List γ}
    (hbody : ∀ i c, cs[i]? = some c → ∀ s, inv s → ∃ s', body i c s = .ok s' ∧ inv s' ∧
      Set.EqOn (get s') (fill i c) (R i c) ∧
      ∀ j < i, ∀ d, cs[j]? = some d → Set.EqOn (get s') (get s) (R j d))
    {s : σ} (hs : inv s) :
    ∃ s', forEach body 0 cs s = .ok s' ∧ inv s' ∧
      ∀ i c, cs[i]? = some c → Set.EqOn (get s') (fill i c) (R i c) := by
  have hloop := forEach_inv (i := 0)
    (P := fun n s' => inv s' ∧ ∀ i < n, ∀ c, cs[i]? = some c →
      Set.EqOn (get s') (fill i c) (R i c))
    ⟨hs, fun i hi => absurd hi (Nat.not_lt_zero i)⟩ fun i c hc s' hs' => by
      rw [Nat.zero_add]
      obtain ⟨s'', hpass, hs'', hfill, hkeep⟩ := hbody i c hc s' hs'.1
      refine ⟨s'', hpass, hs'', fun j hj d hd => ?_⟩
      rcases (Nat.lt_succ_iff.mp hj).lt_or_eq with hlt | rfl
      · exact (hkeep j hlt d hd).trans (hs'.2 j (by rwa [Nat.zero_add]) d hd)
      · obtain rfl := Option.some.inj (hc.symm.trans hd)
        exact hfill
  obtain ⟨s', hrun, hs', hall⟩ := hloop
  rw [Nat.zero_add] at hall
  exact ⟨s', hrun, hs', fun i c hc => hall i (List.getElem?_eq_some_iff.mp hc).1 c hc⟩

/-! ### Rectangles -/

def rect (x y w h : Int) : Set (Int × Int) :=
  {p | (x ≤ p.1 ∧ p.1 < x + w) ∧ y ≤ p.2 ∧ p.2 < y + h}

@[simp] theorem mem_rect {x y w h : Int} {p : Int × Int} :
    p ∈ rect x y w h ↔ (x ≤ p.1 ∧ p.1 < x + w) ∧ y ≤ p.2 ∧ p.2 < y + h := Iff.rfl

theorem rect_subset {x y w h x' y' w' h' : Int} (hx : x' ≤ x) (hy : y' ≤ y)
    (hw : x + w ≤ x' + w') (hh : y + h ≤ y' + h') : rect x y w h ⊆ rect x' y' w' h' := by
  intro p hp
  rw [mem_rect] at hp ⊢
  omega

end Lib
