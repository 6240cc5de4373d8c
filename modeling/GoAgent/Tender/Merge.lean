import GoAgent.Foundation.Batching
import GoAgent.Foundation.Raising
import GoAgent.Tender.Contracts
import Mathlib.Algebra.BigOperators.Group.List.Basic
import Mathlib.Algebra.Order.Ring.Nat

/-!
# One level of the hierarchical merge

`_merge_batches` cuts the partial analyses into batches, greedily under a number of items and a
budget of characters.

* `mergeBatches_eq` — when every item fits alone, its batches are those of the greedy `batch`.
* `merge_level_shrinks_iff` — a level makes fewer batches than it has items exactly when two
  neighbouring items fit into one batch.
-/

namespace GoAgent.Tender

open GoAgent.Foundation

inductive TenderError where
  | analysis (message : String)
  | upstream (message : String)
  | notConfigured (message : String)
  deriving DecidableEq

/-- `TenderChunkAnalysis | TenderAnalysis` -/
inductive MergeItem where
  | chunk (c : TenderChunkAnalysis)
  | analysis (a : TenderAnalysis)
  deriving DecidableEq

def MergeItem.modelDump : MergeItem → Json
  | chunk c => c.modelDump
  | analysis a => a.modelDump

def MergeItem.chars (i : MergeItem) : Nat := jsonChars i.modelDump

/-- The loop of `_merge_batches` over the items that are left. -/
def mergeBatchesFrom (maxItems maxChars : Nat) (batches : List (List MergeItem))
    (current : List MergeItem) (currentChars : Nat) :
    List MergeItem → Except TenderError (List (List MergeItem))
  | [] => .ok (if current.isEmpty then batches else batches ++ [current])
  | item :: items =>
    let itemChars := item.chars
    if maxChars < itemChars then .error (.analysis "归并输入结果超过单次归并预算。")
    else if !current.isEmpty &&
        (decide (maxItems ≤ current.length) || decide (maxChars < currentChars + itemChars)) then
      mergeBatchesFrom maxItems maxChars (batches ++ [current]) [item] itemChars items
    else
      mergeBatchesFrom maxItems maxChars batches (current ++ [item]) (currentChars + itemChars)
        items

def mergeBatches (items : List MergeItem) (maxItems maxChars : Nat) :
    Except TenderError (List (List MergeItem)) :=
  mergeBatchesFrom maxItems maxChars [] [] 0 items

/-! ## The greedy batches -/

def totalChars (items : List MergeItem) : Nat := (items.map MergeItem.chars).sum

/-- One more item fits into the batch. -/
def joins (maxItems maxChars : Nat) (current : List MergeItem) (item : MergeItem) : Bool :=
  decide (current.length < maxItems) && decide (totalChars current + item.chars ≤ maxChars)

section

variable {maxItems maxChars : Nat} {items current : List MergeItem}
  {batches : List (List MergeItem)} {a b : MergeItem}

theorem totalChars_append_singleton : totalChars (current ++ [a]) = totalChars current + a.chars := by
  simp [totalChars]

theorem totalChars_singleton : totalChars [a] = a.chars := by
  simp [totalChars]

theorem mergeBatchesFrom_eq (hfit : ∀ i ∈ items, i.chars ≤ maxChars) :
    mergeBatchesFrom maxItems maxChars batches current (totalChars current) items =
      .ok (batches ++ batch (joins maxItems maxChars) current items) := by
  induction items generalizing batches current with
  | nil => cases current <;> simp [mergeBatchesFrom, batch]
  | cons a items ih =>
    have ha : ¬maxChars < a.chars := Nat.not_lt.2 (hfit a List.mem_cons_self)
    have hrest : ∀ i ∈ items, i.chars ≤ maxChars := fun i hi => hfit i (List.mem_cons_of_mem _ hi)
    have hjoins : (decide (maxItems ≤ current.length) ||
        decide (maxChars < totalChars current + a.chars)) =
          !joins maxItems maxChars current a := by
      simp only [joins, Bool.not_and, ← decide_not, Nat.not_lt, Nat.not_le]
    unfold mergeBatchesFrom batch
    dsimp only
    rw [if_neg ha, hjoins]
    split_ifs
    · rw [← totalChars_singleton, ih hrest, List.append_assoc, List.singleton_append]
    · rw [← totalChars_append_singleton, ih hrest]

/-- **The batches of a level are greedy.** -/
theorem mergeBatches_eq (hfit : ∀ i ∈ items, i.chars ≤ maxChars) :
    mergeBatches items maxItems maxChars = .ok (batch (joins maxItems maxChars) [] items) :=
  mergeBatchesFrom_eq hfit

/-- An item that is too long by itself stops the level. -/
theorem mergeBatchesFrom_error {currentChars : Nat} (hlong : ∃ i ∈ items, maxChars < i.chars) :
    mergeBatchesFrom maxItems maxChars batches current currentChars items =
      .error (.analysis "归并输入结果超过单次归并预算。") := by
  induction items generalizing batches current currentChars with
  | nil => simp at hlong
  | cons a items ih =>
    unfold mergeBatchesFrom
    dsimp only
    by_cases ha : maxChars < a.chars
    · rw [if_pos ha]
    · have hrest : ∃ i ∈ items, maxChars < i.chars := by
        obtain ⟨i, hi, hlt⟩ := hlong
        rcases List.mem_cons.1 hi with rfl | hi
        · exact absurd hlt ha
        · exact ⟨i, hi, hlt⟩
      rw [if_neg ha]
      split_ifs <;> exact ih hrest

theorem mergeBatches_ok (h : mergeBatches items maxItems maxChars = .ok batches) :
    (∀ i ∈ items, i.chars ≤ maxChars) ∧ batches = batch (joins maxItems maxChars) [] items := by
  have hfit : ∀ i ∈ items, i.chars ≤ maxChars := by
    by_contra hlong
    push Not at hlong
    rw [mergeBatches, mergeBatchesFrom_error hlong] at h
    cases h
  exact ⟨hfit, Except.ok.inj (h.symm.trans (mergeBatches_eq hfit))⟩

/-- Every batch of a level stays within both budgets. -/
theorem within_of_mergeBatches (h : mergeBatches items maxItems maxChars = .ok batches)
    (hmax : 0 < maxItems) :
    ∀ b ∈ batches, b.length ≤ maxItems ∧ totalChars b ≤ maxChars := by
  obtain ⟨hfit, rfl⟩ := mergeBatches_ok h
  apply forall_mem_batch
  · intro a ha
    rw [totalChars_singleton]
    exact ⟨hmax, hfit a ha⟩
  · intro current a _ _ hjoins
    simp only [joins, Bool.and_eq_true, decide_eq_true_eq] at hjoins
    rw [totalChars_append_singleton, List.length_append, List.length_singleton]
    exact ⟨hjoins.1, hjoins.2⟩
  · exact fun hne => absurd rfl hne

theorem neighbours_of_not_isChain {R : MergeItem → MergeItem → Prop} :
    ¬items.IsChain R ↔ ∃ pre a b post, items = pre ++ a :: b :: post ∧ ¬R a b := by
  rw [List.isChain_iff_forall_rel_of_append_cons_cons]
  push Not
  constructor
  · rintro ⟨a, b, pre, post, heq, hr⟩
    exact ⟨pre, a, b, post, heq, hr⟩
  · rintro ⟨pre, a, b, post, heq, hr⟩
    exact ⟨a, b, pre, post, heq, hr⟩

/-- **A level makes progress exactly when two neighbours fit together.** -/
theorem merge_level_shrinks_iff (hcount : 2 ≤ items.length) (hitems : 2 ≤ maxItems)
    (hfit : ∀ i ∈ items, i.chars ≤ maxChars) :
    (∃ batches, mergeBatches items maxItems maxChars = .ok batches ∧
      batches.length < items.length) ↔
    ∃ pre a b post, items = pre ++ a :: b :: post ∧ a.chars + b.chars ≤ maxChars := by
  have hne : items ≠ [] := by
    rintro rfl
    simp at hcount
  have hjoins : ∀ a b : MergeItem, ¬joins maxItems maxChars [a] b = false ↔
      a.chars + b.chars ≤ maxChars := by
    intro a b
    simp only [joins, List.length_singleton, totalChars_singleton, Bool.not_eq_false,
      Bool.and_eq_true, decide_eq_true_eq]
    omega
  rw [mergeBatches_eq hfit]
  simp only [Except.ok.injEq, exists_eq_left', batch_length_lt hne, neighbours_of_not_isChain,
    hjoins]

end

/-! ## Analyses of which no two fit together -/

def needsReview : TenderAnalysis where
  status := .needsReview
  packageType := .uncertain
  summary := ⟨"s", by decide⟩

/-- The shortest analysis takes more than half of a budget of 300 characters. -/
theorem merge_level_repeats :
    2 ≤ [MergeItem.analysis needsReview, .analysis needsReview].length ∧
    (∀ i ∈ [MergeItem.analysis needsReview, .analysis needsReview], i.chars ≤ 300) ∧
    mergeBatches [.analysis needsReview, .analysis needsReview] 8 300 =
      .ok [[.analysis needsReview], [.analysis needsReview]] := by
  decide +kernel

theorem merge_level_shrinks_iff_two :
    ∃ batches, mergeBatches [.analysis needsReview, .analysis needsReview] 8 600 = .ok batches ∧
      batches.length < 2 := by
  apply (merge_level_shrinks_iff (by decide) (by decide) (by decide +kernel)).2
  exact ⟨[], _, _, [], rfl, by decide +kernel⟩

end GoAgent.Tender
