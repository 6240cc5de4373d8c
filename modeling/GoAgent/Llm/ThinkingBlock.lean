import GoAgent.Llm.StructuredOutput

/-!
# The thinking block of a response

`_remove_explicit_thinking_block` looks for the tags in the lower case of the text and cuts the text
itself there. The lower case of one character, U+0130, has two characters: the cut is shifted by as
many characters as there are of it before.

* `find_append` — a marker is found where it stands after text without it.
* `Thinking.removed` — what is left of a text with a block.
* `Thinking.removed_iff` — when that is the text around the block.
-/

namespace GoAgent.Llm.StructuredOutput

open GoAgent.Foundation

/-! ## Where a marker is found -/

section Find

variable {m : Char} {t s r : List Char}

/-- A marker does not straddle the place where the next one starts: its first character does not
come again in it. -/
theorem isPrefixOf_append (hm : m ∉ t) (hs : s ≠ []) (h : (m :: t).isPrefixOf s = false) :
    (m :: t).isPrefixOf (s ++ m :: r) = false := by
  rw [Bool.eq_false_iff] at h ⊢
  intro hprefix
  rw [List.isPrefixOf_iff_prefix] at hprefix
  have hleft : s <+: s ++ m :: r := List.prefix_append s _
  rcases List.prefix_or_prefix_of_prefix hprefix hleft with hin | hout
  · exact h (List.isPrefixOf_iff_prefix.2 hin)
  · rcases hout with ⟨u, hu⟩
    cases s with
    | nil => exact hs rfl
    | cons c s =>
      rw [List.cons_append, List.cons.injEq] at hu
      rcases hu with ⟨rfl, hu⟩
      rw [← hu, ← List.cons_append, List.prefix_append_right_inj] at hprefix
      cases u with
      | nil =>
        apply h
        rw [← hu, List.append_nil, List.isPrefixOf_iff_prefix]
      | cons d u =>
        have hd : d = c := (List.cons_prefix_cons.1 hprefix).1
        apply hm
        rw [← hu, hd]
        exact List.mem_append_right _ List.mem_cons_self

theorem find_cons {part : List Char} {c : Char} (h : find part (c :: s) = none) :
    part.isPrefixOf (c :: s) = false ∧ find part s = none := by
  rw [find] at h
  split_ifs at h with hprefix
  exact ⟨Bool.eq_false_iff.2 hprefix, Option.map_eq_none_iff.1 h⟩

/-- **Search.** After text without the marker the marker is found where it stands. -/
theorem find_append (hm : m ∉ t) (h : find (m :: t) s = none) :
    find (m :: t) (s ++ (m :: t ++ r)) = some s.length := by
  induction s with
  | nil =>
    have hprefix : (m :: t).isPrefixOf (m :: (t ++ r)) = true := by
      rw [List.isPrefixOf_iff_prefix, ← List.cons_append]
      exact List.prefix_append _ _
    show find (m :: t) (m :: (t ++ r)) = some 0
    rw [find, if_pos hprefix]
  | cons c s ih =>
    rcases find_cons h with ⟨ hprefix, hrest⟩
    have hlonger : (m :: t).isPrefixOf (c :: (s ++ (m :: t ++ r))) = false :=
      isPrefixOf_append hm (List.cons_ne_nil c s) hprefix
    rw [List.cons_append, find, hlonger, if_neg Bool.false_ne_true, ih hrest]
    rfl

end Find

/-! ## Lower case -/

theorem lower_append (s t : List Char) : lower (s ++ t) = lower s ++ lower t :=
  List.flatMap_append

theorem length_lowerChar (c : Char) :
    (lowerChar c).length = if c = '\u0130' then 2 else 1 := by
  unfold lowerChar
  by_cases hdot : c = '\u0130'
  · subst hdot
    rfl
  · rw [if_neg hdot, if_neg hdot]
    split_ifs <;> rfl

/-- Lower case adds one character for each U+0130. -/
theorem length_lower (s : List Char) : (lower s).length = s.length + s.count '\u0130' := by
  induction s with
  | nil => rfl
  | cons c s ih =>
    have hcons : lower (c :: s) = lowerChar c ++ lower s := rfl
    rw [hcons, List.length_append, length_lowerChar, ih, List.length_cons, List.count_cons]
    by_cases hdot : c = '\u0130'
    · subst hdot
      simp only [if_true, beq_self_eq_true]
      omega
    · rw [if_neg hdot, if_neg (by simpa using hdot)]
      omega

/-- Text whose lower case has none of U+0307 has none of U+0130. -/
theorem count_dotted {s : List Char} (h : '\u0307' ∉ lower s) : s.count '\u0130' = 0 := by
  rw [List.count_eq_zero]
  intro hmem
  exact h (List.mem_flatMap.2 ⟨_, hmem, by decide⟩)

/-! ## A text with a thinking block -/

/-- A response with a thinking block in it; the tags are in any letter case. -/
structure Thinking where
  pre : List Char
  opening : List Char
  body : List Char
  closing : List Char
  post : List Char
  pre_untagged : find thinkTag (lower pre) = none
  opens : lower opening = thinkTag
  body_untagged : find endTag (lower body) = none
  closes : lower closing = endTag

namespace Thinking

variable (b : Thinking)

def text : List Char := b.pre ++ (b.opening ++ (b.body ++ (b.closing ++ b.post)))

/-- What comes after the text before the block. -/
def rest : List Char := b.opening ++ (b.body ++ (b.closing ++ b.post))

theorem length_opening : b.opening.length = 7 := by
  have hlength := length_lower b.opening
  have hplain : b.opening.count '\u0130' = 0 := by
    apply count_dotted
    rw [b.opens]
    decide
  rw [b.opens, hplain] at hlength
  exact hlength.symm

theorem length_closing : b.closing.length = 8 := by
  have hlength := length_lower b.closing
  have hplain : b.closing.count '\u0130' = 0 := by
    apply count_dotted
    rw [b.closes]
    decide
  rw [b.closes, hplain] at hlength
  exact hlength.symm

theorem lower_text :
    lower b.text = lower b.pre ++ (thinkTag ++ (lower b.body ++ (endTag ++ lower b.post))) := by
  rw [text, lower_append, lower_append, lower_append, lower_append, b.opens, b.closes]

theorem thinkStart_text : thinkStart b.text = some (lower b.pre).length := by
  rw [thinkStart, lower_text]
  exact find_append (by decide) b.pre_untagged

theorem thinkEnd_text : thinkEnd b.text (lower b.pre).length =
    some ((lower b.pre).length + 7 + (lower b.body).length) := by
  have hdrop : (lower b.text).drop ((lower b.pre).length + thinkTag.length) =
      lower b.body ++ (endTag ++ lower b.post) := by
    rw [lower_text, ← List.append_assoc, ← List.length_append, List.drop_left]
  have hfind : find endTag (lower b.body ++ (endTag ++ lower b.post)) =
      some (lower b.body).length := find_append (by decide) b.body_untagged
  rw [thinkEnd, findFrom, hdrop, hfind, Option.map_some, Nat.add_comm]
  rfl

/-- By how much the start of the cut is shifted. -/
def early : Nat := b.pre.count '\u0130'

/-- By how much more the end is. -/
def late : Nat := b.body.count '\u0130'

/-- **What is left.** The cut starts after a part of the tag and ends after a part of the text behind
the block. -/
theorem removed : removeExplicitThinkingBlock b.text =
    .ok (b.pre ++ (b.rest.take b.early ++ b.post.drop (b.early + b.late))) := by
  have htake : b.text.take (lower b.pre).length = b.pre ++ b.rest.take b.early := by
    rw [length_lower]
    exact List.take_length_add_append _
  have hdrop : b.text.drop ((lower b.pre).length + 7 + (lower b.body).length + endTag.length) =
      b.post.drop (b.early + b.late) := by
    have hsum : (lower b.pre).length + 7 + (lower b.body).length + endTag.length =
        (b.pre ++ b.opening ++ b.body ++ b.closing).length + (b.early + b.late) := by
      simp only [length_lower, List.length_append, length_opening, length_closing, early, late]
      have hend : endTag.length = 8 := rfl
      omega
    have htext : b.text = b.pre ++ b.opening ++ b.body ++ b.closing ++ b.post := by
      rw [text, List.append_assoc, List.append_assoc, List.append_assoc]
    rw [hsum, htext, List.drop_length_add_append]
  unfold removeExplicitThinkingBlock
  rw [thinkStart_text]
  dsimp only
  rw [thinkEnd_text]
  dsimp only
  rw [htake, hdrop, List.append_assoc]

/-- The shifted cut leaves the text around the block: it ends where it should or where nothing is
left to lose, and what it keeps of the block is what it takes from behind. -/
structure Lossless : Prop where
  late_eq : b.late = 0 ∨ b.early = b.post.length
  kept : b.rest.take b.early <+: b.post

theorem kept_iff : b.rest.take b.early ++ b.post.drop (b.early + b.late) = b.post ↔
    b.Lossless := by
  have hrest : b.rest.length = b.body.length + b.post.length + 15 := by
    simp only [rest, List.length_append, length_opening, length_closing]
    omega
  constructor
  · intro h
    have hlength := congrArg List.length h
    rw [List.length_append, List.length_take, List.length_drop, hrest] at hlength
    refine ⟨?_, ?_⟩
    · omega
    · exact ⟨_, h⟩
  · rintro ⟨hlate, s, hs⟩
    have hlength := congrArg List.length hs
    rw [List.length_append, List.length_take, hrest] at hlength
    have htake : (b.rest.take b.early).length = b.early := by
      rw [List.length_take, hrest]
      omega
    rcases hlate with hlate | hlate
    · have hdrop : b.post.drop (b.early + b.late) = s := by
        rw [hlate, ← hs, Nat.add_zero]
        exact List.drop_left' htake
      rw [hdrop, hs]
    · have hs' : s = [] := List.eq_nil_of_length_eq_zero (by omega)
      rw [List.drop_eq_nil_of_le (by omega), ← hs, hs']

/-- **The block.** The block and nothing else is removed exactly when the cut loses nothing. -/
theorem removed_iff : removeExplicitThinkingBlock b.text = .ok (b.pre ++ b.post) ↔
    b.Lossless := by
  rw [removed, Except.ok.injEq, List.append_cancel_left_eq, kept_iff]

/-- Without U+0130 before the end of the block nothing is shifted. -/
theorem lossless_of_plain (hpre : '\u0130' ∉ b.pre) (hbody : '\u0130' ∉ b.body) :
    b.Lossless := by
  have hearly : b.early = 0 := List.count_eq_zero.2 hpre
  refine ⟨.inl (List.count_eq_zero.2 hbody), ?_⟩
  rw [hearly, List.take_zero]
  exact List.nil_prefix

/-- `İ<think>x</think>{}` -/
def dotted : Thinking where
  pre := ['\u0130']
  opening := thinkTag
  body := ['x']
  closing := endTag
  post := ['\x7b', '\x7d']
  pre_untagged := by decide
  opens := by decide
  body_untagged := by decide
  closes := by decide

/-- It becomes `İ<}`. -/
theorem dotted_shifted :
    ¬∀ b : Thinking, removeExplicitThinkingBlock b.text = .ok (b.pre ++ b.post) := by
  intro h
  have hremoved : removeExplicitThinkingBlock dotted.text = .ok ['\u0130', '<', '\x7d'] := by rfl
  have hclaimed := h dotted
  rw [hremoved] at hclaimed
  exact absurd hclaimed (by decide)

end Thinking

end GoAgent.Llm.StructuredOutput
