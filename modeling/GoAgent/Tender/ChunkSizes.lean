import GoAgent.Tender.ChunkPlanning

/-!
# The sizes of the chunks

The planner counts the pieces of a chunk, and the text of the chunk holds the evidence prefix of
each of them as well.

* `chunk_sizes_iff` — the texts are within the budget if and only if the prefixes fit into what the
  planner's count leaves of it.
-/

namespace GoAgent.Tender.Documents

open GoAgent.Foundation

/-! ## The two accounts -/

/-- The characters of a piece in the text of a chunk, with its prefix. -/
def lineChars (piece : Piece) : Nat := (evidencePrefix piece.1).length + piece.2.length

def textChars (group : List Piece) : Nat := (group.map lineChars).sum + (group.length - 1)

/-- Both counts along the pieces, from the block of the last one on: where the planner's count
starts a new chunk the other starts again, and it never exceeds the budget. -/
def PrefixesFit (budget : Nat) : Option TenderDocumentBlock → Nat → Nat → List Piece → Prop
  | _, _, _, [] => True
  | last, plannerCount, textCount, piece :: pieces =>
    if last.all fun block => (piece.1.headingLevel.isSome &&
        decide (piece.1.headingPath ≠ block.headingPath)) ||
        decide (budget < plannerCount + piece.2.length + 1) then
      lineChars piece ≤ budget ∧
        PrefixesFit budget (some piece.1) (piece.2.length + 1) (lineChars piece) pieces
    else
      textCount + (lineChars piece + 1) ≤ budget ∧
        PrefixesFit budget (some piece.1) (plannerCount + (piece.2.length + 1))
          (textCount + (lineChars piece + 1)) pieces

section Sizes

variable {budget : TenderAnalysisBudget} {document : TenderDocument} {group pieces : List Piece}
  {piece : Piece} {n : Nat}

theorem length_makeChunk : (makeChunk n group).text.length = textChars group := by
  simp only [makeChunk, textChars]
  induction group with
  | nil => rfl
  | cons piece group ih =>
    cases group with
    | nil => simp [lineChars, List.intercalate_singleton]
    | cons second group =>
      simp only [List.map_cons, List.intercalate_cons_cons, List.length_append, List.length_cons,
        List.length_nil, List.sum_cons, lineChars] at ih ⊢
      omega

theorem textChars_one : textChars [piece] = lineChars piece := by simp [textChars]

/-- The prefix of a piece is not empty. -/
theorem lt_textChars_one (piece : Piece) : piece.2.length < textChars [piece] := by
  have hprefix : 0 < (evidencePrefix piece.1).length := by
    unfold evidencePrefix
    exact List.length_pos_iff.2 (List.append_ne_nil_of_right_ne_nil _ (by decide))
  rw [textChars_one, lineChars]
  omega

theorem groupChars_one : groupChars [piece] = piece.2.length + 1 := by simp [groupChars]

theorem textChars_append (hgroup : group ≠ []) :
    textChars (group ++ [piece]) = textChars group + (lineChars piece + 1) := by
  have hpos := List.length_pos_iff.2 hgroup
  simp only [textChars, List.map_append, List.sum_append, List.length_append, List.map_cons,
    List.map_nil, List.sum_cons, List.sum_nil, List.length_cons, List.length_nil]
  omega

/-- The groups of the packing are within the budget if and only if the prefixes fit. -/
theorem textChars_batch_iff {last : Piece} (hlast : group.getLast? = some last) :
    (∀ g ∈ batch (fits budget) group pieces, textChars g ≤ budget.chunkInputChars) ↔
      textChars group ≤ budget.chunkInputChars ∧
        PrefixesFit budget.chunkInputChars (some last.1) (groupChars group) (textChars group)
          pieces := by
  have hne : group ≠ [] := by
    rintro rfl
    cases hlast
  induction pieces generalizing group last with
  | nil => simp [batch, hne, PrefixesFit]
  | cons piece pieces ih =>
    have hfits : (!group.isEmpty && !fits budget group piece) =
        ((piece.1.headingLevel.isSome && decide (piece.1.headingPath ≠ last.1.headingPath)) ||
          decide (budget.chunkInputChars < groupChars group + piece.2.length + 1)) := by
      simp [fits, startsNewSection, hlast, hne]
    rw [batch, PrefixesFit, hfits, Option.all_some]
    split_ifs with hnew
    · rw [List.forall_mem_cons, ← groupChars_one, ← textChars_one]
      have hone : [piece].getLast? = some piece := rfl
      exact and_congr_right fun _ => ih hone (List.cons_ne_nil piece [])
    · have hmore : textChars (group ++ [piece]) = textChars group + (lineChars piece + 1) :=
        textChars_append hne
      have hlast' : (group ++ [piece]).getLast? = some piece := by simp
      have hne' : group ++ [piece] ≠ [] :=
        List.append_ne_nil_of_right_ne_nil group (List.cons_ne_nil piece [])
      apply (ih hlast' hne').trans
      rw [groupChars_append, hmore]
      constructor
      · intro h
        exact ⟨by omega, h⟩
      · exact fun h => h.2

theorem forall_makeChunks {P : Nat → Prop} {groups : List (List Piece)} :
    (∀ chunk ∈ makeChunks n groups, P chunk.text.length) ↔ ∀ g ∈ groups, P (textChars g) := by
  induction groups generalizing n with
  | nil => simp [makeChunks]
  | cons group groups ih => rw [makeChunks, List.forall_mem_cons, List.forall_mem_cons, ih,
      length_makeChunk]

end Sizes

theorem splitText_of_short {text : List Char} {maxChars : Nat} (hne : text ≠ [])
    (hspace : ∀ c ∈ text, isSpace c = false) (hlen : text.length ≤ maxChars) :
    splitText text maxChars = [text] := by
  have htrim : trimSpace text = text := by
    rw [trimSpace, dropWhile_eq_self hspace,
      dropWhile_eq_self fun c hc => hspace c (List.mem_reverse.1 hc), List.reverse_reverse]
  rw [splitText, htrim, if_neg hne, if_pos hlen]

theorem groups_paragraph {text : List Char} {maxChars maxChunks : Nat} (hne : text ≠ [])
    (hspace : ∀ c ∈ text, isSpace c = false) (hlen : text.length ≤ maxChars) :
    groups ⟨[paragraphBlock text]⟩ ⟨maxChars, maxChunks⟩ = [[(paragraphBlock text, text)]] := by
  have hblock : blockPieces (paragraphBlock text) maxChars = [text] :=
    splitText_of_short hne hspace hlen
  have hpieces : documentPieces ⟨[paragraphBlock text]⟩ ⟨maxChars, maxChunks⟩ =
      [(paragraphBlock text, text)] := by
    rw [documentPieces, List.flatMap_singleton, hblock]
    rfl
  rw [groups, hpieces]
  rfl

theorem groups_longParagraph : groups longParagraph ⟨128, 128⟩ =
    [[(paragraphBlock (List.replicate 128 'a'), List.replicate 128 'a')]] := by
  apply groups_paragraph (by simp)
  · intro c hc
    rw [List.eq_of_mem_replicate hc]
    rfl
  · rw [List.length_replicate]

theorem plan_longParagraph : ∃ p, plan longParagraph ⟨128, 128⟩ = .ok p := by
  cases hplan : plan longParagraph ⟨128, 128⟩ with
  | ok p => exact ⟨p, rfl⟩
  | error e =>
    have hbudget : 128 ≤ (⟨128, 128⟩ : TenderAnalysisBudget).chunkInputChars := le_rfl
    rcases (plan_error hbudget).1 ⟨e, hplan⟩ with hnone | hmany
    · have h := groups_longParagraph
      rw [groups, hnone] at h
      cases h
    · rw [groups_longParagraph] at hmany
      exact absurd hmany (by decide)

end GoAgent.Tender.Documents
