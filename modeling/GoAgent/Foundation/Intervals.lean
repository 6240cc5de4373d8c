import Mathlib.Data.List.Chain

/-!
# Ranges in a row

A range `(s, e)` of positions holds both its ends. A list of ranges is in a row when each starts
after the one before it ends, and leaves at most `gap` positions between them.

* `pairwise_before` — in a row, every range ends before every later one starts.
* `exists_covered` — when the last range ends near enough to `last`, every window of `gap + 1`
  positions up to `last` meets a range, but for windows that end before the first one.
-/

namespace GoAgent.Foundation

def Holds (range : ℕ × ℕ) (i : ℕ) : Prop := range.1 ≤ i ∧ i ≤ range.2

/-- `current` starts after `previous` has ended, and soon enough. -/
def Follows (gap : ℕ) (previous current : ℕ × ℕ) : Prop :=
  previous.2 < current.1 ∧ current.1 - previous.2 - 1 ≤ gap

variable {gap a b last : ℕ} {r : ℕ × ℕ} {ranges : List (ℕ × ℕ)}

theorem pairwise_before (hwell : ∀ r ∈ ranges, r.1 ≤ r.2) (h : ranges.IsChain (Follows gap)) :
    ranges.Pairwise fun r r' => r.2 < r'.1 := by
  induction ranges with
  | nil => exact List.Pairwise.nil
  | cons r ranges ih =>
    have hrest : ∀ r ∈ ranges, r.1 ≤ r.2 := fun r' hr' => hwell r' (List.mem_cons_of_mem r hr')
    cases ranges with
    | nil => exact List.pairwise_singleton _ r
    | cons next ranges =>
      rcases List.isChain_cons_cons.1 h with ⟨hnext, hchain⟩
      have hlater := ih hrest hchain
      apply List.pairwise_cons.2 ⟨_, hlater⟩
      intro r' hr'
      have hlt : r.2 < next.1 := hnext.1
      rcases List.mem_cons.1 hr' with rfl | hr'
      · exact hlt
      · have hwide := hrest next List.mem_cons_self
        have hafter := (List.pairwise_cons.1 hlater).1 r' hr'
        omega

/-- The first range of a row starts first. -/
theorem first_le (hwell : ∀ r' ∈ r :: ranges, r'.1 ≤ r'.2)
    (h : (r :: ranges).IsChain (Follows gap)) {r' : ℕ × ℕ} (hr' : r' ∈ r :: ranges) :
    r.1 ≤ r'.1 := by
  have hwide : r.1 ≤ r.2 := hwell r List.mem_cons_self
  rcases List.mem_cons.1 hr' with rfl | hlater
  · exact Nat.le_refl r'.1
  · have hafter : r.2 < r'.1 := (List.pairwise_cons.1 (pairwise_before hwell h)).1 r' hlater
    omega

/-- Ranges in a row share no position. -/
theorem not_holds_both (hwell : ∀ r ∈ ranges, r.1 ≤ r.2) (h : ranges.IsChain (Follows gap)) :
    ranges.Pairwise fun r r' => ∀ i, ¬(Holds r i ∧ Holds r' i) := by
  apply (pairwise_before hwell h).imp
  intro r r' hlt i hboth
  have hle : i ≤ r.2 := hboth.1.2
  have hge : r'.1 ≤ i := hboth.2.1
  omega

/-- A window that starts before the range ends, and ends after the range starts, meets it. -/
theorem exists_holds (hr : r.1 ≤ r.2) (hab : a ≤ b) (hfirst : r.1 ≤ b) (hmeets : a ≤ r.2) :
    ∃ i, a ≤ i ∧ i ≤ b ∧ Holds r i :=
  ⟨max a r.1, le_max_left a r.1, max_le hab hfirst, le_max_right a r.1, max_le hmeets hr⟩

theorem exists_covered (hwell : ∀ r' ∈ r :: ranges, r'.1 ≤ r'.2)
    (h : (r :: ranges).IsChain (Follows gap))
    (hlast : last - ((r :: ranges).getLast (List.cons_ne_nil r ranges)).2 ≤ gap)
    (hfirst : r.1 ≤ b) (hab : a + gap ≤ b) (hb : b ≤ last) :
    ∃ i, a ≤ i ∧ i ≤ b ∧ ∃ r' ∈ r :: ranges, Holds r' i := by
  have hwide : r.1 ≤ r.2 := hwell r List.mem_cons_self
  have hle : a ≤ b := by omega
  induction ranges generalizing r with
  | nil =>
    rw [List.getLast_singleton] at hlast
    rcases exists_holds hwide hle hfirst (by omega) with ⟨i, hai, hib, hi⟩
    exact ⟨i, hai, hib, r, List.mem_cons_self, hi⟩
  | cons next ranges ih =>
    by_cases hmeets : a ≤ r.2
    · rcases exists_holds hwide hle hfirst hmeets with ⟨i, hai, hib, hi⟩
      exact ⟨i, hai, hib, r, List.mem_cons_self, hi⟩
    -- The window starts after the first range, so it is up to the rest of the row.
    · have hrest : ∀ r' ∈ next :: ranges, r'.1 ≤ r'.2 :=
        fun r' hr' => hwell r' (List.mem_cons_of_mem r hr')
      rcases List.isChain_cons_cons.1 h with ⟨hnext, hchain⟩
      have hnear : next.1 - r.2 - 1 ≤ gap := hnext.2
      have hstart : next.1 ≤ b := by omega
      rw [List.getLast_cons (List.cons_ne_nil next ranges)] at hlast
      rcases ih hrest hchain hlast hstart (hrest next List.mem_cons_self) with
        ⟨i, hai, hib, r', hr', hi⟩
      exact ⟨i, hai, hib, r', List.mem_cons_of_mem r hr', hi⟩

end GoAgent.Foundation
