import Mathlib.Data.List.Induction
import Mathlib.Data.List.Sort

/-!
What an insertion sort keeps. It is stable: what a filter takes out of the
sorted list is the sort of what it takes out of the list, so a part that was
in order comes out as it was. And it only ever compares an element with those
after it, so two relations that agree on these pairs sort alike. In a list in order a
fold that keeps the last element of some kind keeps the greatest.
-/

namespace Lib

variable {α : Type} {r : α → α → Prop} [DecidableRel r]

theorem orderedInsert_of_forall {a : α} {l : List α} (h : ∀ b ∈ l, r a b) :
    l.orderedInsert r a = a :: l := by
  cases l with
  | nil => rfl
  | cons b l => exact List.orderedInsert_cons_of_le r l (h b (List.mem_cons_self ..))

theorem filter_orderedInsert_of_pos [IsTrans α r] {p : α → Bool} {a : α} (ha : p a = true)
    {l : List α} (hl : l.Pairwise r) :
    (l.orderedInsert r a).filter p = (l.filter p).orderedInsert r a := by
  induction l with
  | nil => exact List.filter_cons_of_pos ha
  | cons b l ih =>
      obtain ⟨hb, htail⟩ := List.pairwise_cons.mp hl
      by_cases hab : r a b
      · have hall : ∀ c ∈ (b :: l).filter p, r a c := by
          intro c hc
          rcases List.mem_cons.mp (List.mem_filter.mp hc).1 with rfl | hc
          · exact hab
          · exact IsTrans.trans a b c hab (hb c hc)
        rw [List.orderedInsert_cons_of_le r l hab, List.filter_cons_of_pos ha,
          orderedInsert_of_forall hall]
      · rw [List.orderedInsert_of_not_le r l hab]
        by_cases hpb : p b = true
        · rw [List.filter_cons_of_pos hpb, List.filter_cons_of_pos hpb, ih htail,
            List.orderedInsert_of_not_le r _ hab]
        · rw [List.filter_cons_of_neg hpb, List.filter_cons_of_neg hpb, ih htail]

theorem filter_orderedInsert_of_neg {p : α → Bool} {a : α} (ha : ¬p a = true) {l : List α} :
    (l.orderedInsert r a).filter p = l.filter p := by
  induction l with
  | nil => exact List.filter_cons_of_neg ha
  | cons b l ih =>
      by_cases hab : r a b
      · rw [List.orderedInsert_cons_of_le r l hab, List.filter_cons_of_neg ha]
      · rw [List.orderedInsert_of_not_le r l hab, List.filter_cons, List.filter_cons, ih]

/-- Taking out and sorting can be done in either order. -/
theorem filter_insertionSort [Std.Total r] [IsTrans α r] (p : α → Bool) (l : List α) :
    (l.insertionSort r).filter p = (l.filter p).insertionSort r := by
  induction l with
  | nil => rfl
  | cons a l ih =>
      rw [List.insertionSort_cons]
      by_cases ha : p a = true
      · rw [filter_orderedInsert_of_pos ha (List.pairwise_insertionSort r l), ih,
          List.filter_cons_of_pos ha, List.insertionSort_cons]
      · rw [filter_orderedInsert_of_neg ha, ih, List.filter_cons_of_neg ha]

theorem orderedInsert_congr {s : α → α → Prop} [DecidableRel s] {a : α} {l : List α}
    (h : ∀ b ∈ l, (r a b ↔ s a b)) : l.orderedInsert r a = l.orderedInsert s a := by
  induction l with
  | nil => rfl
  | cons b l ih =>
      have hb := h b (List.mem_cons_self ..)
      rw [List.orderedInsert_cons, List.orderedInsert_cons,
        ih fun c hc => h c (List.mem_cons_of_mem b hc)]
      exact if_congr hb rfl rfl

theorem insertionSort_congr {s : α → α → Prop} [DecidableRel s] {l : List α}
    (h : l.Pairwise fun a b => (r a b ↔ s a b)) : l.insertionSort r = l.insertionSort s := by
  induction l with
  | nil => rfl
  | cons a l ih =>
      obtain ⟨ha, htail⟩ := List.pairwise_cons.mp h
      rw [List.insertionSort_cons, List.insertionSort_cons, ih htail]
      exact orderedInsert_congr fun b hb => ha b ((List.mem_insertionSort s).mp hb)

theorem foldl_overwrite {β : Type} (p : α → Prop) [DecidablePred p] (f : α → β) (b : β)
    (l : List α) :
    l.foldl (fun acc a => if p a then f a else acc) b =
      ((l.filter fun a => decide (p a)).getLast?.map f).getD b := by
  induction l using List.reverseRecOn with
  | nil => rfl
  | append_singleton l a ih =>
      rw [List.foldl_append, List.foldl_cons, List.foldl_nil, List.filter_append, ih]
      by_cases ha : p a
      · simp [ha]
      · simp [ha]

theorem le_of_getLast? {κ : Type} [Preorder κ] {key : α → κ} {l : List α} {a b : α}
    (hl : l.Pairwise fun x y => key x < key y) (ha : l.getLast? = some a) (hb : b ∈ l) :
    key b ≤ key a := by
  obtain ⟨init, rfl⟩ := List.getLast?_eq_some_iff.mp ha
  rcases List.mem_append.mp hb with hb | hb
  · exact ((List.pairwise_append.mp hl).2.2 b hb a (List.mem_singleton_self a)).le
  · exact (congrArg key (List.mem_singleton.mp hb)).le

/-- What holds of the left list holds of the right one, where the two say the
same of related elements. -/
theorem forall_iff_of_forall₂ {β : Type} {r : α → β → Prop} {l : List α} {l' : List β}
    {p : α → Prop} {q : β → Prop} (h : List.Forall₂ r l l')
    (hpq : ∀ a ∈ l, ∀ b, r a b → (p a ↔ q b)) : (∀ a ∈ l, p a) ↔ ∀ b ∈ l', q b := by
  induction h with
  | nil => simp
  | cons hab _ ih =>
      obtain ⟨hhead, htail⟩ := List.forall_mem_cons.mp hpq
      rw [List.forall_mem_cons, List.forall_mem_cons, hhead _ hab, ih htail]

end Lib
