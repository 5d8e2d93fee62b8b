import ReplayRenderer.MockHv.Guest

/-!
An execution of the toy guest as a timeline: the byte strings folded into
its register, each with its icount, in the order of the folds. The guest at
an icount is a function of the timeline before it, so two executions can be
compared without running either.

One more fold separates two timelines for good. Below its icount they agree;
from it on the registers differ, because folding is injective, and with them
every state hash and every epoch boundary's chain value, as long as the hash
does not collide on what the two guests feed it.
-/

namespace ReplayRenderer

open Lib Lib.Outcome

/-- Bytes folded into the register, and when. -/
abbrev Moment := Nat × Bytes

def before (t : Nat) (l : List Moment) : List Moment := l.filter fun m => m.1 < t

def since (t : Nat) (l : List Moment) : List Moment := l.filter fun m => t ≤ m.1

def Timed (l : List Moment) : Prop := l.Pairwise fun m m' => m.1 ≤ m'.1

def registerFrom (fnv : UInt64) (l : List Moment) : UInt64 :=
  l.foldl (fun fnv m => fnvFold fnv m.2) fnv

def register (l : List Moment) : UInt64 := registerFrom fnvOffsetBasis l

/-- The timeline with one more fold, after what comes before `at_` and ahead
of what is due at `at_`. -/
def withFold (at_ : Nat) (bytes : Bytes) (l : List Moment) : List Moment :=
  before at_ l ++ (at_, bytes) :: since at_ l

theorem before_eq_self {t : Nat} {l : List Moment} (h : ∀ m ∈ l, m.1 < t) : before t l = l := by
  rw [before, List.filter_eq_self]
  intro m hm
  exact decide_eq_true (h m hm)

theorem before_append {t : Nat} {l l' : List Moment} :
    before t (l ++ l') = before t l ++ before t l' := List.filter_append ..

theorem before_before {s t : Nat} {l : List Moment} (h : s ≤ t) :
    before s (before t l) = before s l := by
  rw [before, before, before, List.filter_filter]
  congr 1
  funext m
  rw [← Bool.decide_and]
  congr 1
  rw [eq_iff_iff]
  omega

theorem before_of_before {s t : Nat} {l : List Moment} (h : s ≤ t) :
    before t (before s l) = before s l := by
  apply before_eq_self
  intro m hm
  have hlt := of_decide_eq_true (List.mem_filter.mp hm).2
  omega

theorem since_eq_self {t : Nat} {l : List Moment} (h : ∀ m ∈ l, t ≤ m.1) : since t l = l := by
  rw [since, List.filter_eq_self]
  intro m hm
  exact decide_eq_true (h m hm)

theorem before_eq_nil {t : Nat} {l : List Moment} (h : ∀ m ∈ l, t ≤ m.1) : before t l = [] := by
  rw [before, List.filter_eq_nil_iff]
  intro m hm hlt
  have hle := h m hm
  have hlt := of_decide_eq_true hlt
  omega

/-- What is folded at `t` comes after what was folded up to an earlier time. -/
theorem folded_append {s t : Nat} {l l' : List Moment} (hl : ∀ m ∈ l, m.1 ≤ s) (hst : s ≤ t)
    (hl' : ∀ m ∈ l', m.1 = t) : ∀ m ∈ l ++ l', m.1 ≤ t := by
  intro m hm
  rcases List.mem_append.mp hm with hm | hm
  · exact (hl m hm).trans hst
  · exact (hl' m hm).le

theorem Timed.before_append_since {l : List Moment} (hl : Timed l) (t : Nat) :
    before t l ++ since t l = l := by
  induction l with
  | nil => rfl
  | cons m l ih =>
      have hcons := List.pairwise_cons.mp hl
      by_cases hm : m.1 < t
      · have hb : before t (m :: l) = m :: before t l := List.filter_cons_of_pos (by simpa using hm)
        have hs : since t (m :: l) = since t l := List.filter_cons_of_neg (by simpa using hm)
        rw [hb, hs, List.cons_append, ih hcons.2]
      · have hall : ∀ m' ∈ m :: l, t ≤ m'.1 := by
          intro m' hm'
          rcases List.mem_cons.mp hm' with rfl | hm'
          · omega
          · have := hcons.1 m' hm'
            omega
        rw [before_eq_nil hall, since_eq_self hall, List.nil_append]

theorem registerFrom_append {fnv : UInt64} {l l' : List Moment} :
    registerFrom fnv (l ++ l') = registerFrom (registerFrom fnv l) l' := List.foldl_append ..

theorem registerFrom_injective (l : List Moment) :
    Function.Injective fun fnv => registerFrom fnv l := by
  induction l with
  | nil => exact fun _ _ h => h
  | cons m l ih => exact fun x y h => fnvFold_injective m.2 (ih h)

/-! ### One fold more -/

section OneFoldMore

variable {at_ : Nat} {bytes : Bytes} {l : List Moment}

theorem withFold_of_le (h : ∀ m ∈ l, at_ ≤ m.1) : withFold at_ bytes l = (at_, bytes) :: l := by
  rw [withFold, before_eq_nil h, since_eq_self h, List.nil_append]

theorem withFold_append_of_lt {l' : List Moment} (h : ∀ m ∈ l, m.1 < at_) :
    withFold at_ bytes (l ++ l') = l ++ withFold at_ bytes l' := by
  have hsince : since at_ l = [] := by
    apply List.filter_eq_nil_iff.mpr
    intro m hm hge
    have hlt := h m hm
    have hge := of_decide_eq_true hge
    omega
  rw [withFold, before_append, before_eq_self h, since, List.filter_append, ← since, ← since,
    hsince, List.nil_append, List.append_assoc, withFold]

theorem before_withFold_of_le {t : Nat} (h : t ≤ at_) :
    before t (withFold at_ bytes l) = before t l := by
  have hrest : before t ((at_, bytes) :: since at_ l) = [] := by
    apply before_eq_nil
    intro m hm
    rcases List.mem_cons.mp hm with rfl | hm
    · exact h
    · have hge := of_decide_eq_true (List.mem_filter.mp hm).2
      omega
  rw [withFold, before_append, hrest, List.append_nil, before_before h]

/-- The extra fold comes before what was due at its icount. -/
theorem register_before_withFold {t : Nat} (h : at_ < t) :
    register (before t (withFold at_ bytes l)) =
      registerFrom (fnvFold (register (before at_ l)) bytes) (before t (since at_ l)) := by
  have hfold : before t ((at_, bytes) :: since at_ l) =
      (at_, bytes) :: before t (since at_ l) := List.filter_cons_of_pos (by simpa using h)
  rw [withFold, before_append, before_of_before h.le, hfold, register, registerFrom_append]
  rfl

theorem register_before_since (hl : Timed l) {t : Nat} (h : at_ ≤ t) :
    register (before t l) = registerFrom (register (before at_ l)) (before t (since at_ l)) := by
  rw [register, register, ← registerFrom_append, ← before_of_before h, ← before_append,
    hl.before_append_since]

/-- After it the registers never meet again. -/
theorem register_withFold_ne (hl : Timed l)
    (hchange : fnvFold (register (before at_ l)) bytes ≠ register (before at_ l)) {t : Nat}
    (h : at_ < t) :
    register (before t (withFold at_ bytes l)) ≠ register (before t l) := by
  rw [register_before_withFold h, register_before_since hl h.le]
  exact fun heq => hchange (registerFrom_injective (before t (since at_ l)) heq)

/-- Nor do those of two different folds. -/
theorem fnvFold_eq_of_register_withFold {bytes' : Bytes} {t : Nat} (h : at_ < t)
    (heq : register (before t (withFold at_ bytes l)) =
      register (before t (withFold at_ bytes' l))) :
    fnvFold (register (before at_ l)) bytes = fnvFold (register (before at_ l)) bytes' := by
  rw [register_before_withFold h, register_before_withFold h] at heq
  exact registerFrom_injective (before t (since at_ l)) heq

end OneFoldMore

/-! ### The guest along a timeline -/

section Guest

variable (blake3 : Bytes → Bytes32) (seed : Bytes32)

def chainAfter (l : List Moment) : Nat → Bytes32
  | 0 => seed
  | k + 1 =>
    blake3 ((chainAfter l k).bytes ++ le64 (register (before ((k + 1) * mockEpochIcounts) l)))

def guest (l : List Moment) (t : Nat) : GuestSim :=
  { fnv := register l
    chain := chainAfter blake3 seed l (t / mockEpochIcounts)
    icount := t }

def guestAt (l : List Moment) (t : Nat) : GuestSim := guest blake3 seed (before (t + 1) l) t

variable {blake3 seed}

theorem new_eq_guest {machineConfigHash baseSnapshotRef : Bytes32} :
    GuestSim.new blake3 machineConfigHash baseSnapshotRef =
      guest blake3 (chainSeed blake3 machineConfigHash baseSnapshotRef) [] 0 := rfl

/-- The chain depends on the folds before its last boundary only. -/
theorem chainAfter_congr {l l' : List Moment} {k : Nat}
    (h : ∀ t ≤ k * mockEpochIcounts, before t l = before t l') :
    chainAfter blake3 seed l k = chainAfter blake3 seed l' k := by
  induction k with
  | zero => rfl
  | succ k ih =>
      have hle : k * mockEpochIcounts ≤ (k + 1) * mockEpochIcounts :=
        Nat.mul_le_mul_right _ (Nat.le_succ k)
      rw [chainAfter, chainAfter, ih fun t ht => h t (ht.trans hle), h _ (le_refl _)]

/-- Folds from `t` on do not show in the chain at `t`. -/
theorem chainAfter_append {l l' : List Moment} {t : Nat} (h : ∀ m ∈ l', t ≤ m.1) :
    chainAfter blake3 seed (l ++ l') (t / mockEpochIcounts) =
      chainAfter blake3 seed l (t / mockEpochIcounts) := by
  apply chainAfter_congr
  intro s hs
  have hle := Nat.div_mul_le_self t mockEpochIcounts
  have hlate : before s l' = [] := before_eq_nil fun m hm => (hs.trans hle).trans (h m hm)
  rw [before_append, hlate, List.append_nil]

@[simp] theorem chain_guestAt {l : List Moment} {t : Nat} :
    (guestAt blake3 seed l t).chain = chainAfter blake3 seed l (t / mockEpochIcounts) := by
  apply chainAfter_congr
  intro s hs
  have hle := Nat.div_mul_le_self t mockEpochIcounts
  exact before_before (by omega)

/-- Folding over the register of a timeline that has ended goes along its
chain. -/
theorem chainFold_chainAfter {l : List Moment} {n k : Nat}
    (hl : ∀ m ∈ l, m.1 < (k + 1) * mockEpochIcounts) :
    chainFold blake3 (register l) n (chainAfter blake3 seed l k) =
      chainAfter blake3 seed l (k + n) := by
  induction n generalizing k with
  | zero => rfl
  | succ n ih =>
      have hchain : blake3 ((chainAfter blake3 seed l k).bytes ++ le64 (register l)) =
          chainAfter blake3 seed l (k + 1) := by
        rw [chainAfter, before_eq_self hl]
      rw [chainFold, hchain, Nat.add_comm n 1, ← Nat.add_assoc]
      -- what was folded before this boundary was folded before the next
      apply ih
      intro m hm
      have hm := hl m hm
      have hnext : (k + 1) * mockEpochIcounts ≤ (k + 1 + 1) * mockEpochIcounts :=
        Nat.mul_le_mul_right _ (Nat.le_succ _)
      omega

theorem bound_of_stepTo {ε : Type} {t : Nat} {sim sim' : GuestSim}
    (h : (sim.stepTo blake3 t : Outcome ε GuestSim) = .ok sim') :
    (t / mockEpochIcounts + 1) * mockEpochIcounts < u64Bound := by
  by_contra hbound
  rw [stepTo_eq, if_neg fun h => hbound h.2] at h
  cases h

theorem stepTo_guest {ε : Type} {l : List Moment} {s t : Nat} (hl : ∀ m ∈ l, m.1 ≤ s)
    (hst : s ≤ t) (hbound : (t / mockEpochIcounts + 1) * mockEpochIcounts < u64Bound) :
    ((guest blake3 seed l s).stepTo blake3 t : Outcome ε GuestSim) =
      .ok (guest blake3 seed l t) := by
  have hdiv : s / mockEpochIcounts ≤ t / mockEpochIcounts := Nat.div_le_div_right hst
  have hchain : chainFold blake3 (register l) (t / mockEpochIcounts - s / mockEpochIcounts)
      (chainAfter blake3 seed l (s / mockEpochIcounts)) =
        chainAfter blake3 seed l (t / mockEpochIcounts) := by
    rw [chainFold_chainAfter, Nat.add_sub_cancel' hdiv]
    intro m hm
    have hm := hl m hm
    have hlt := Nat.lt_div_mul_add (a := s) (show 0 < mockEpochIcounts by decide)
    rw [Nat.succ_mul]
    omega
  rw [stepTo_eq, if_pos ⟨hst, hbound⟩, GuestSim.stepped, guest, guest, hchain]

theorem foldBytes_guest {l : List Moment} {t : Nat} {bytes : Bytes} :
    (guest blake3 seed l t).foldBytes bytes = guest blake3 seed (l ++ [(t, bytes)]) t := by
  have hreg : register (l ++ [(t, bytes)]) = fnvFold (register l) bytes := by
    rw [register, registerFrom_append]
    rfl
  have hchain : chainAfter blake3 seed (l ++ [(t, bytes)]) (t / mockEpochIcounts) =
      chainAfter blake3 seed l (t / mockEpochIcounts) := by
    apply chainAfter_congr
    intro s hs
    have hle := Nat.div_mul_le_self t mockEpochIcounts
    have hnil : before s [(t, bytes)] = [] := by
      apply before_eq_nil
      intro m hm
      obtain rfl := List.mem_singleton.mp hm
      omega
    rw [before_append, hnil, List.append_nil]
  rw [guest, guest, hreg, hchain]
  rfl

/-! ### What two guests can be told apart by -/

def chainInput (blake3 : Bytes → Bytes32) (seed : Bytes32) (l : List Moment) (k : Nat) : Bytes :=
  (chainAfter blake3 seed l k).bytes ++
    le64 (register (before ((k + 1) * mockEpochIcounts) l))

def stateInput (blake3 : Bytes → Bytes32) (seed : Bytes32) (l : List Moment) (t : Nat) : Bytes :=
  (chainAfter blake3 seed l (t / mockEpochIcounts)).bytes ++
    le64 (register (before (t + 1) l)) ++ leBytes 8 t

def chainInputs (blake3 : Bytes → Bytes32) (seed : Bytes32) (end_ : Nat) (l : List Moment) :
    List Bytes :=
  (List.range (end_ / mockEpochIcounts)).map (chainInput blake3 seed l)

theorem chainValue_guestAt {l : List Moment} {t : Nat} :
    (guestAt blake3 seed l t).chainValue blake3 = blake3 (stateInput blake3 seed l t) := by
  rw [GuestSim.chainValue, chain_guestAt]
  rfl

/-- Inputs that agree put the same register second. -/
theorem register_eq_of_append {c c' : Bytes32} {r r' : UInt64} {s s' : Bytes}
    (h : c.bytes ++ le64 r ++ s = c'.bytes ++ le64 r' ++ s') : r = r' := by
  rw [List.append_assoc, List.append_assoc] at h
  have htail := (List.append_inj h (by simp)).2
  have hreg := (List.append_inj htail (by simp)).1
  exact UInt64.toNat_inj.mp (leBytes_inj r.toNat_lt r'.toNat_lt hreg)

section Collision

variable {at_ : Nat} {bytes : Bytes} {l : List Moment} {end_ : Nat}

/-- The hash tells two guests apart wherever it is fed by both: at the same
boundary, or at the same stop. -/
structure CollisionFree (blake3 : Bytes → Bytes32) (seed : Bytes32) (end_ : Nat)
    (l l' : List Moment) : Prop where
  chain : ∀ k < end_ / mockEpochIcounts,
    blake3 (chainInput blake3 seed l k) = blake3 (chainInput blake3 seed l' k) →
      chainInput blake3 seed l k = chainInput blake3 seed l' k
  state : ∀ t < end_ + 1,
    blake3 (stateInput blake3 seed l t) = blake3 (stateInput blake3 seed l' t) →
      stateInput blake3 seed l t = stateInput blake3 seed l' t

instance {l' : List Moment} : Decidable (CollisionFree blake3 seed end_ l l') :=
  decidable_of_iff (_ ∧ _) ⟨fun h => ⟨h.1, h.2⟩, fun h => ⟨h.chain, h.state⟩⟩

theorem chainAfter_withFold {k : Nat} (hk : k * mockEpochIcounts ≤ at_) :
    chainAfter blake3 seed (withFold at_ bytes l) k = chainAfter blake3 seed l k :=
  chainAfter_congr fun _ ht => before_withFold_of_le (ht.trans hk)

/-- Up to the icount of an extra fold both guests feed it the same. -/
theorem collisionFree_withFold
    (hchain : ∀ k < end_ / mockEpochIcounts, at_ < (k + 1) * mockEpochIcounts →
      blake3 (chainInput blake3 seed l k) ≠ blake3 (chainInput blake3 seed (withFold at_ bytes l) k))
    (hstate : ∀ j < end_ + 1 - at_, blake3 (stateInput blake3 seed l (at_ + j)) ≠
      blake3 (stateInput blake3 seed (withFold at_ bytes l) (at_ + j))) :
    CollisionFree blake3 seed end_ l (withFold at_ bytes l) := by
  constructor
  · intro k hk heq
    by_cases hlate : at_ < (k + 1) * mockEpochIcounts
    · exact absurd heq (hchain k hk hlate)
    · have hle : k * mockEpochIcounts ≤ (k + 1) * mockEpochIcounts :=
        Nat.mul_le_mul_right _ (Nat.le_succ k)
      rw [chainInput, chainInput, chainAfter_withFold (by omega), before_withFold_of_le (by omega)]
  · intro t ht heq
    by_cases hlate : at_ ≤ t
    · have hne := hstate (t - at_) (by omega)
      rw [Nat.add_sub_cancel' hlate] at hne
      exact absurd heq hne
    · have hle := Nat.div_mul_le_self t mockEpochIcounts
      rw [stateInput, stateInput, chainAfter_withFold (by omega), before_withFold_of_le (by omega)]

variable (hl : Timed l)
  (hchange : fnvFold (register (before at_ l)) bytes ≠ register (before at_ l))
  (hfree : CollisionFree blake3 seed end_ l (withFold at_ bytes l))

include hl hchange hfree

/-- The chain at a boundary shows the extra fold exactly past its icount. -/
theorem chainAfter_eq_iff {k : Nat} (hk : k * mockEpochIcounts ≤ end_) :
    chainAfter blake3 seed l k = chainAfter blake3 seed (withFold at_ bytes l) k ↔
      k * mockEpochIcounts ≤ at_ := by
  constructor
  · intro heq
    by_contra hlt
    obtain ⟨k, rfl⟩ : ∃ j, k = j + 1 := ⟨k - 1, by
      have : k ≠ 0 := by
        rintro rfl
        omega
      omega⟩
    have hin : chainInput blake3 seed l k =
        chainInput blake3 seed (withFold at_ bytes l) k :=
      hfree.chain k ((Nat.le_div_iff_mul_le (by decide)).mpr hk) heq
    have hreg := register_eq_of_append (congrArg (· ++ []) hin)
    exact register_withFold_ne hl hchange (by omega) hreg.symm
  · exact fun hle => (chainAfter_withFold hle).symm

/-- The state hash shows it exactly from its icount on. -/
theorem chainValue_eq_iff {t : Nat} (ht : t ≤ end_) :
    (guestAt blake3 seed l t).chainValue blake3 =
        (guestAt blake3 seed (withFold at_ bytes l) t).chainValue blake3 ↔ t < at_ := by
  rw [chainValue_guestAt, chainValue_guestAt]
  constructor
  · intro heq
    by_contra hge
    have hin : stateInput blake3 seed l t = stateInput blake3 seed (withFold at_ bytes l) t :=
      hfree.state t (Nat.lt_succ_of_le ht) heq
    exact register_withFold_ne hl hchange (by omega) (register_eq_of_append hin).symm
  · intro hlt
    have hle := Nat.div_mul_le_self t mockEpochIcounts
    rw [stateInput, stateInput, chainAfter_withFold (by omega), before_withFold_of_le (by omega)]

end Collision

end Guest

end ReplayRenderer
