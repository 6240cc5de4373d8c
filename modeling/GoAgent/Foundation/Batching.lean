import Mathlib.Data.List.Chain

/-!
# Greedy batches

`batch fits` goes through a list and keeps a current batch: an element joins it if it is empty or
`fits` says so, and otherwise opens the next one.

* `flatten_batch` — the batches are the list, cut into pieces.
* `batch_length_lt` — there are fewer batches than elements exactly when two neighbours fit into
  one batch.
-/

namespace GoAgent.Foundation

variable {α : Type} {fits : List α → α → Bool} {a : α} {as current : List α}

def batch (fits : List α → α → Bool) (current : List α) : List α → List (List α)
  | [] => if current.isEmpty then [] else [current]
  | a :: as =>
    if !current.isEmpty && !fits current a then current :: batch fits [a] as
    else batch fits (current ++ [a]) as

theorem flatten_batch : (batch fits current as).flatten = current ++ as := by
  induction as generalizing current with
  | nil => cases current <;> simp [batch]
  | cons a as ih =>
    unfold batch
    split_ifs
    · rw [List.flatten_cons, ih, List.singleton_append]
    · rw [ih, List.append_assoc, List.singleton_append]

theorem nil_notMem_batch : [] ∉ batch fits current as := by
  induction as generalizing current with
  | nil => cases current <;> simp [batch]
  | cons a as ih =>
    unfold batch
    split_ifs with h
    · intro hmem
      rcases List.mem_cons.1 hmem with rfl | hmem
      · simp at h
      · exact ih hmem
    · exact ih

/-- What a batch of one element has, and an element that fits keeps, every batch has. -/
theorem forall_mem_batch {P : List α → Prop} (hone : ∀ a ∈ as, P [a])
    (hfits : ∀ current, ∀ a ∈ as, P current → fits current a → P (current ++ [a]))
    (hcurrent : current ≠ [] → P current) : ∀ b ∈ batch fits current as, P b := by
  induction as generalizing current with
  | nil => cases current <;> simp_all [batch]
  | cons a as ih =>
    have hone' : ∀ b ∈ as, P [b] := fun b hb => hone b (List.mem_cons_of_mem _ hb)
    have hfits' : ∀ current, ∀ b ∈ as, P current → fits current b → P (current ++ [b]) :=
      fun current b hb => hfits current b (List.mem_cons_of_mem _ hb)
    have ha : P [a] := hone a List.mem_cons_self
    unfold batch
    split_ifs with h
    · simp only [Bool.and_eq_true, Bool.not_eq_true'] at h
      intro b hb
      rcases List.mem_cons.1 hb with rfl | hb
      · apply hcurrent
        rintro rfl
        simp at h
      · exact ih hone' hfits' (fun _ => ha) b hb
    · apply ih hone' hfits'
      intro _
      by_cases hnil : current = []
      · simpa [hnil] using ha
      · apply hfits current a List.mem_cons_self (hcurrent hnil)
        simpa [hnil] using h

theorem batch_length_le : (batch fits current as).length ≤ as.length + 1 := by
  induction as generalizing current with
  | nil => cases current <;> simp [batch]
  | cons a as ih =>
    unfold batch
    split_ifs
    · exact Nat.succ_le_succ ih
    · exact ih.trans (by simp)

/-- Every element has a batch of its own exactly when no two neighbours fit. -/
theorem batch_length_eq : (batch fits [a] as).length = as.length + 1 ↔
    (a :: as).IsChain fun a b => fits [a] b = false := by
  induction as generalizing a with
  | nil => simp [batch]
  | cons b as ih =>
    rw [List.isChain_cons_cons]
    unfold batch
    by_cases h : fits [a] b
    · have hle : (batch fits ([a] ++ [b]) as).length ≤ as.length + 1 := batch_length_le
      simp only [h, List.isEmpty_cons, Bool.not_true, Bool.and_false, Bool.false_eq_true,
        ↓reduceIte, Bool.true_eq_false, false_and, iff_false, List.length_cons]
      omega
    · rw [Bool.not_eq_true] at h
      simp only [h, List.isEmpty_cons, Bool.not_false, Bool.and_self, ↓reduceIte, true_and,
        List.length_cons, Nat.add_right_cancel_iff]
      exact ih

/-- **The batches are fewer than the elements exactly when two neighbours fit.** -/
theorem batch_length_lt (hne : as ≠ []) : (batch fits [] as).length < as.length ↔
    ¬as.IsChain fun a b => fits [a] b = false := by
  cases as with
  | nil => exact absurd rfl hne
  | cons a as =>
    have hstart : batch fits [] (a :: as) = batch fits [a] as := rfl
    have hle : (batch fits [a] as).length ≤ as.length + 1 := batch_length_le
    rw [hstart, ← batch_length_eq, List.length_cons]
    omega

end GoAgent.Foundation
