import ReplayRenderer.Lib.Footprint

/-!
A painter's algebra. A layer says of every location what becomes of the value
that is read there, and an operation renders a layer when that is what it does,
everywhere and to every state. Operations that follow each other render the
layers one over the other; so a program that draws element over element is one
function of the location, read off its parts.

A set that is painted is a layer. Painting the same set twice may do something
else than painting it once, but regions that do not meet add up whatever is done
to them.
-/

namespace Lib

variable {ε σ ι β γ : Type}

/-- The operation keeps `inv`, always returns, and does `layer` to what `get`
reads at each location. -/
def Renders (inv : σ → Prop) (get : σ → ι → β) (layer : ι → β → β)
    (op : σ → Outcome ε σ) : Prop :=
  ∀ s, inv s → ∃ s', op s = .ok s' ∧ inv s' ∧ ∀ i, get s' i = layer i (get s i)

namespace Renders

variable {inv : σ → Prop} {get : σ → ι → β} {layer layer' : ι → β → β}
  {op op' : σ → Outcome ε σ}

theorem congr (h : Renders inv get layer op) (heq : ∀ i b, layer i b = layer' i b) :
    Renders inv get layer' op := by
  intro s hs
  obtain ⟨s', hop, hs', hget⟩ := h s hs
  exact ⟨s', hop, hs', fun i => (hget i).trans (heq i _)⟩

theorem nothing : Renders inv get (fun _ b => b) (Outcome.ok : σ → Outcome ε σ) :=
  fun s hs => ⟨s, rfl, hs, fun _ => rfl⟩

/-- One over the other. -/
theorem seq (h : Renders inv get layer op) (h' : Renders inv get layer' op') :
    Renders inv get (fun i b => layer' i (layer i b)) fun s => op s >>= op' := by
  intro s hs
  obtain ⟨s₁, hop, hs₁, hget⟩ := h s hs
  obtain ⟨s₂, hop', hs₂, hget'⟩ := h' s₁ hs₁
  refine ⟨s₂, ?_, hs₂, fun i => by rw [hget', hget]⟩
  show (op s >>= op') = .ok s₂
  rw [hop, Outcome.ok_bind, hop']

theorem after {x : σ → Outcome ε γ} {f : γ → σ → Outcome ε σ} {c : γ}
    (hx : ∀ s, inv s → x s = .ok c) (h : Renders inv get layer (f c)) :
    Renders inv get layer fun s => x s >>= fun c => f c s := by
  intro s hs
  obtain ⟨s', hop, hs', hget⟩ := h s hs
  refine ⟨s', ?_, hs', hget⟩
  show (x s >>= fun c => f c s) = .ok s'
  rw [hx s hs, Outcome.ok_bind, hop]

theorem ite {p : Prop} [Decidable p] (h : p → Renders inv get layer op)
    (h' : ¬p → Renders inv get layer' op') :
    Renders inv get (fun i b => if p then layer i b else layer' i b) fun s =>
      if p then op s else op' s := by
  by_cases hp : p
  · simpa only [if_pos hp] using h hp
  · simpa only [if_neg hp] using h' hp

/-- Element over element. -/
theorem forEach {layers : γ → ι → β → β} {body : Nat → γ → σ → Outcome ε σ} {i : Nat}
    {cs : List γ} (h : ∀ j, ∀ c ∈ cs, Renders inv get (layers c) (body j c)) :
    Renders inv get (fun l b => cs.foldl (fun b c => layers c l b) b)
      (Lib.forEach body i cs) := by
  induction cs generalizing i with
  | nil => exact nothing
  | cons c cs ih =>
      exact (h i c List.mem_cons_self).seq (ih fun j d hd => h j d (List.mem_cons_of_mem _ hd))

end Renders

namespace Paints

variable {inv : σ → Prop} {get : σ → ι → β} {g : ι → β → β} {S T : Set ι}
  {op op' : σ → Outcome ε σ}

/-- A set that is painted, as a layer. -/
theorem renders [DecidablePred (· ∈ S)] (h : Paints inv get g S op) :
    Renders inv get (fun i b => if i ∈ S then g i b else b) op := by
  intro s hs
  obtain ⟨s', hop, hs', hin, hout⟩ := h s hs
  refine ⟨s', hop, hs', fun i => ?_⟩
  by_cases hi : i ∈ S
  · simpa only [if_pos hi] using hin i hi
  · simpa only [if_neg hi] using hout hi

theorem congr (h : Paints inv get g S op) (hST : ∀ i, i ∈ S ↔ i ∈ T) :
    Paints inv get g T op := by
  obtain rfl : S = T := Set.ext hST
  exact h

theorem ite {p : Prop} [Decidable p] (h : p → Paints inv get g S op) :
    Paints inv get g {i | p ∧ i ∈ S} fun s => if p then op s else .ok s := by
  by_cases hp : p
  · have hset := (h hp).congr (T := {i | p ∧ i ∈ S}) fun i => (and_iff_right hp).symm
    simpa only [if_pos hp] using hset
  · have hempty : Paints inv get g ∅ (Outcome.ok : σ → Outcome ε σ) := nothing
    have hset := hempty.congr (T := {i | p ∧ i ∈ S}) fun i => ⟨False.elim, fun hi => hp hi.1⟩
    simpa only [if_neg hp] using hset

theorem forEach (hg : ∀ i b, g i (g i b) = g i b) {S : Nat → γ → Set ι}
    {body : Nat → γ → σ → Outcome ε σ} {i : Nat} {cs : List γ}
    (h : ∀ j c, cs[j]? = some c → Paints inv get g (S (i + j) c) (body (i + j) c)) :
    Paints inv get g {p | ∃ j c, cs[j]? = some c ∧ p ∈ S (i + j) c} (Lib.forEach body i cs) := by
  induction cs generalizing i with
  | nil => exact nothing.congr fun p => by simp
  | cons c cs ih =>
      have hrest := ih (i := i + 1) fun j d hd => by
        rw [Nat.add_assoc, Nat.add_comm 1 j]
        exact h (j + 1) d hd
      refine ((h 0 c rfl).seq hg hrest).congr fun p => ?_
      simp only [Set.mem_union, Set.mem_ofPred_eq]
      constructor
      · rintro (hp | ⟨j, d, hd, hp⟩)
        · exact ⟨0, c, rfl, hp⟩
        · refine ⟨j + 1, d, hd, ?_⟩
          rwa [Nat.add_assoc, Nat.add_comm 1 j] at hp
      · rintro ⟨j, d, hd, hp⟩
        cases j with
        | zero =>
            obtain rfl : c = d := Option.some.inj hd
            exact .inl hp
        | succ j =>
            refine .inr ⟨j, d, hd, ?_⟩
            rwa [Nat.add_assoc, Nat.add_comm 1 j]

/-! ### Regions that do not meet -/

theorem seq_of_disjoint (hdisj : Disjoint S T) (h : Paints inv get g S op)
    (h' : Paints inv get g T op') : Paints inv get g (S ∪ T) fun s => op s >>= op' := by
  intro s hs
  obtain ⟨s₁, hop, hs₁, hin, hout⟩ := h s hs
  obtain ⟨s₂, hop', hs₂, hin', hout'⟩ := h' s₁ hs₁
  refine ⟨s₂, ?_, hs₂, ?_, ?_⟩
  · show (op s >>= op') = .ok s₂
    rw [hop, Outcome.ok_bind, hop']
  · rintro i (hi | hi)
    · rw [hout' (Set.disjoint_left.mp hdisj hi), hin i hi]
    · rw [hin' i hi, hout (Set.disjoint_right.mp hdisj hi)]
  · intro i hi
    rw [Set.compl_union] at hi
    rw [hout' hi.2, hout hi.1]

theorem forRange_of_disjoint {S : Nat → Set ι} {body : Nat → σ → Outcome ε σ} {n : Nat}
    (hdisj : Pairwise fun i j => Disjoint (S i) (S j))
    (h : ∀ i < n, Paints inv get g (S i) (body i)) :
    Paints inv get g {p | ∃ i < n, p ∈ S i} fun s => Lib.forRange body s n := by
  induction n with
  | zero => exact nothing.congr fun p => by simp
  | succ n ih =>
      have hlast : Disjoint {p | ∃ i < n, p ∈ S i} (S n) := by
        rw [Set.disjoint_left]
        rintro p ⟨i, hi, hp⟩
        exact Set.disjoint_left.mp (hdisj hi.ne) hp
      refine (seq_of_disjoint hlast (ih fun i hi => h i (Nat.lt_succ_of_lt hi))
        (h n (Nat.lt_succ_self n))).congr fun p => ?_
      simp only [Nat.lt_succ_iff_lt_or_eq, or_and_right, exists_or, exists_eq_left,
        Set.mem_union, Set.mem_ofPred_eq]

theorem forInt_of_disjoint {S : Int → Set ι} {body : Int → σ → Outcome ε σ} {lo hi : Int}
    (hdisj : Pairwise fun i j => Disjoint (S i) (S j))
    (h : ∀ i, lo ≤ i → i < hi → Paints inv get g (S i) (body i)) :
    Paints inv get g {p | ∃ i, (lo ≤ i ∧ i < hi) ∧ p ∈ S i} fun s =>
      Lib.forInt body s lo hi := by
  have hshift : Pairwise fun i j : Nat => Disjoint (S (lo + i)) (S (lo + j)) :=
    fun i j hij => hdisj (by omega)
  refine (forRange_of_disjoint (n := (hi - lo).toNat) hshift fun d hd =>
    h (lo + d) (by omega) (by omega)).congr fun p => ?_
  constructor
  · rintro ⟨d, hd, hp⟩
    exact ⟨lo + d, by omega, hp⟩
  · rintro ⟨i, hi, hp⟩
    refine ⟨(i - lo).toNat, by omega, ?_⟩
    rwa [Int.toNat_of_nonneg (by omega), add_sub_cancel]

end Paints

end Lib
