import Mathlib.Data.List.Count

/-!
# Lists with one place changed

The parties of a component stand in a list, and a step changes the place of one of them:
`List.set`. What is counted over the list changes by what that place counts.
-/

namespace GoAgent.Foundation

theorem count_set {α : Type} [BEq α] [LawfulBEq α] [DecidableEq α] {l : List α} {k : Nat} {a b x : α}
    (h : l[k]? = some a) :
    (l.set k b).count x + (if a = x then 1 else 0) = l.count x + if b = x then 1 else 0 := by
  induction l generalizing k with
  | nil => simp at h
  | cons y l ih =>
    cases k with
    | zero =>
      cases h
      simp only [List.set_cons_zero, List.count_cons, beq_iff_eq]
      omega
    | succ k =>
      have hk := ih (k := k) h
      simp only [List.set_cons_succ, List.count_cons]
      omega

theorem set_self {α : Type} {l : List α} {k : Nat} {a : α} (h : l[k]? = some a) :
    l.set k a = l := by
  obtain ⟨hlt, rfl⟩ := List.getElem?_eq_some_iff.1 h
  exact List.set_getElem_self hlt

theorem index_unique {α : Type} [BEq α] [LawfulBEq α] {l : List α} {i j : Nat} {a : α}
    (hcount : l.count a ≤ 1) (hi : l[i]? = some a) (hj : l[j]? = some a) : i = j := by
  induction l generalizing i j with
  | nil => simp at hi
  | cons x l ih =>
    rw [List.count_cons] at hcount
    have hpos : ∀ {k : Nat}, l[k]? = some a → 0 < l.count a := fun hk =>
      List.count_pos_iff.2 (List.mem_of_getElem? hk)
    cases i with
    | zero =>
      cases j with
      | zero => rfl
      | succ j =>
        cases hi
        have hlater := hpos (k := j) hj
        simp only [BEq.rfl, ↓reduceIte] at hcount
        omega
    | succ i =>
      cases j with
      | zero =>
        cases hj
        have hlater := hpos (k := i) hi
        simp only [BEq.rfl, ↓reduceIte] at hcount
        omega
      | succ j => exact congrArg (· + 1) (ih (by omega) hi hj)

theorem getElem?_set_of {α : Type} {l : List α} {k j : Nat} {a b : α} (h : l[k]? = some a) :
    (l.set k b)[j]? = if j = k then some b else l[j]? := by
  obtain ⟨hlt, -⟩ := List.getElem?_eq_some_iff.1 h
  rw [List.getElem?_set]
  by_cases hj : j = k
  · rw [if_pos hj.symm, if_pos hj, if_pos hlt]
  · rw [if_neg (Ne.symm hj), if_neg hj]

end GoAgent.Foundation
