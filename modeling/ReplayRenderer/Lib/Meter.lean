import ReplayRenderer.Lib.Outcome

/-!
Procedures that spend from a budget. A budget that is not used up cannot be
seen: with more of it a procedure does the same. That is a statement about
two runs, but it composes, so it is proved one step at a time, together with
what makes it compose: the limit stays, and what is spent stays spent. A
counter beside the budget may be coupled to the spending.
-/

namespace Lib

/-- A budget inside a state, with a counter, and the same state with a higher
limit. -/
structure Meter (σ : Type) where
  used : σ → Nat
  limit : σ → Nat
  count : σ → Nat
  raise : Nat → σ → σ

structure Meter.Spends {σ : Type} (m : Meter σ) (s s' : σ) : Prop where
  limit_eq : m.limit s' = m.limit s
  used_le : m.used s ≤ m.used s'
  count_eq : m.count s' + m.used s = m.count s + m.used s'

namespace Meter.Spends

variable {σ : Type} {m : Meter σ} {s s' s'' : σ}

theorem refl (s : σ) : m.Spends s s := ⟨rfl, le_refl _, rfl⟩

theorem trans (h : m.Spends s s') (h' : m.Spends s' s'') : m.Spends s s'' where
  limit_eq := h'.limit_eq.trans h.limit_eq
  used_le := h.used_le.trans h'.used_le
  count_eq := by
    have hcount := h.count_eq
    have hcount' := h'.count_eq
    omega

end Meter.Spends

/-- `x` spends from the budget alone, counts what it spends, and does not see
the limit unless it reaches it. -/
structure Metered {σ ε α : Type} (m : Meter σ) (x : Proc σ ε α) : Prop where
  spends : ∀ s, m.Spends s (x s).2
  unseen : ∀ s n, m.used (x s).2 < m.limit s → x (m.raise n s) = ((x s).1, m.raise n (x s).2)

namespace Metered

variable {σ ε ε' α β : Type} {m : Meter σ}

/-- A step that leaves the state alone, and whose result does not depend on a
limit that is not reached. -/
theorem of_state_eq {x : Proc σ ε α} (hstate : ∀ s, (x s).2 = s)
    (hvalue : ∀ s n, m.used s < m.limit s → (x (m.raise n s)).1 = (x s).1) : Metered m x where
  spends s := by
    rw [hstate]
    exact .refl s
  unseen s n hlt := by
    rw [hstate] at hlt ⊢
    exact Prod.ext (hvalue s n hlt) (hstate _)

theorem pure (a : α) : Metered m (Pure.pure a : Proc σ ε α) :=
  of_state_eq (fun _ => rfl) fun _ _ _ => rfl

theorem lift (x : Outcome ε α) : Metered m (Proc.lift x) :=
  of_state_eq (fun _ => rfl) fun _ _ _ => rfl

theorem gets {f : σ → α} (h : ∀ s n, m.used s < m.limit s → f (m.raise n s) = f s) :
    Metered m (Proc.gets f : Proc σ ε α) :=
  of_state_eq (fun _ => rfl) fun s n hlt => congrArg Outcome.ok (h s n hlt)

theorem modify {f : σ → σ} (hspends : ∀ s, m.Spends s (f s))
    (hraise : ∀ s n, f (m.raise n s) = m.raise n (f s)) :
    Metered m (Proc.modify f : Proc σ ε Unit) where
  spends := hspends
  unseen s n _ := congrArg (Prod.mk _) (hraise s n)

/-- One after the other: where the second does not reach the limit, the first
has not either. -/
theorem bind {x : Proc σ ε α} {f : α → Proc σ ε β} (hx : Metered m x)
    (hf : ∀ a, Metered m (f a)) : Metered m (x >>= f) where
  spends s := by
    have hspends := hx.spends s
    rw [Proc.bind_apply]
    rcases hs : x s with ⟨a | e | _, s'⟩ <;> rw [hs] at hspends
    · exact hspends.trans ((hf a).spends s')
    · exact hspends
    · exact hspends
  unseen s n := by
    have hspends := hx.spends s
    have hunseen := hx.unseen s n
    rw [Proc.bind_apply, Proc.bind_apply]
    rcases hs : x s with ⟨a | e | _, s'⟩ <;> rw [hs] at hspends hunseen <;> intro hlt
    · have hrest := (hf a).spends s'
      rw [hunseen (hrest.used_le.trans_lt hlt)]
      exact (hf a).unseen s' n (hspends.limit_eq ▸ hlt)
    · rw [hunseen hlt]
    · rw [hunseen hlt]

theorem attempt {x : Proc σ ε α} (hx : Metered m x) :
    Metered m (Proc.attempt x : Proc σ ε' (Except ε α)) where
  spends s := by
    have hspends := hx.spends s
    rw [Proc.attempt]
    rcases hs : x s with ⟨a | e | _, s'⟩ <;> rw [hs] at hspends <;> exact hspends
  unseen s n := by
    have hunseen := hx.unseen s n
    rw [Proc.attempt, Proc.attempt]
    rcases hs : x s with ⟨a | e | _, s'⟩ <;> rw [hs] at hunseen <;> intro hlt <;>
      rw [hunseen hlt]

theorem ite {p : Prop} [Decidable p] {x y : Proc σ ε α} (hx : Metered m x) (hy : Metered m y) :
    Metered m (if p then x else y) := by
  split
  · exact hx
  · exact hy

/-- The budget may be read where what is made of it does not show the limit. -/
theorem gets_bind {f : σ → β} {g : β → Proc σ ε α}
    (hg : ∀ b, Metered m (g b))
    (h : ∀ s n, m.used s < m.limit s → g (f (m.raise n s)) = g (f s)) :
    Metered m (Proc.gets f >>= g) where
  spends s := (hg (f s)).spends s
  unseen s n hlt := by
    have hlt' : m.used s < m.limit s := ((hg (f s)).spends s).used_le.trans_lt hlt
    have hsame : (Proc.gets f >>= g) (m.raise n s) = g (f s) (m.raise n s) :=
      congrFun (h s n hlt') _
    rw [hsame]
    exact (hg (f s)).unseen s n hlt

end Metered

/-! ### Errors that cannot happen -/

def Avoids {σ ε α : Type} (e : ε) (x : Proc σ ε α) : Prop := ∀ s, (x s).1 ≠ .err e

namespace Avoids

variable {σ ε ε' α β : Type} {e : ε}

theorem pure (a : α) : Avoids e (Pure.pure a : Proc σ ε α) := fun _ => nofun

theorem lift {x : Outcome ε α} (h : x ≠ .err e) : Avoids e (Proc.lift x : Proc σ ε α) :=
  fun _ => h

theorem gets (f : σ → α) : Avoids e (Proc.gets f : Proc σ ε α) := fun _ => nofun

theorem modify (f : σ → σ) : Avoids e (Proc.modify f : Proc σ ε Unit) := fun _ => nofun

theorem bind_at {x : Proc σ ε α} {f : α → Proc σ ε β} {s : σ} (hx : (x s).1 ≠ .err e)
    (hf : ∀ a, Avoids e (f a)) : ((x >>= f) s).1 ≠ .err e := by
  rw [Proc.bind_apply]
  rcases hs : x s with ⟨a | e' | _, s'⟩ <;> rw [hs] at hx
  · exact hf a s'
  · simpa using hx
  · nofun

theorem bind {x : Proc σ ε α} {f : α → Proc σ ε β} (hx : Avoids e x)
    (hf : ∀ a, Avoids e (f a)) : Avoids e (x >>= f) := fun s => bind_at (hx s) hf

/-- A failure that is caught does not show. -/
theorem attempt {x : Proc σ ε' α} : Avoids e (Proc.attempt x : Proc σ ε (Except ε' α)) := by
  intro s
  rw [Proc.attempt]
  rcases x s with ⟨a | e' | _, s'⟩ <;> simp

theorem ite {p : Prop} [Decidable p] {x y : Proc σ ε α} (hx : Avoids e x) (hy : Avoids e y) :
    Avoids e (if p then x else y) := by
  split
  · exact hx
  · exact hy

end Avoids

end Lib
