import GoAgent.Foundation.Uuid

/-!
# The blocks of a document

`_iter_document_blocks` reads the children of a DOCX body into blocks, and gives each block the
texts of the headings it stands under.

* `heading_paths_iff` — the paths are those of the open headings if and only if every heading finds
  the number of open headings that its level is cut to.
-/

namespace GoAgent.Tender.Documents

open GoAgent.Foundation

/-! ## The body -/

inductive BlockKind where
  | paragraph
  | table
  deriving DecidableEq

structure TenderDocumentBlock where
  blockId : String
  kind : BlockKind
  text : List Char
  tableRows : List (List (List Char)) := []
  styleName : Option (List Char) := none
  headingLevel : Option Nat := none
  order : Nat := 0
  headingPath : List (List Char) := []
  tableHeader : List (List Char) := []
  isTemplate : Bool := false
  paragraphNumber : Option Nat := none
  deriving DecidableEq

/-- `Paragraph.style`: a style may have no name. -/
structure ParagraphStyle where
  name : Option (List Char)
  deriving DecidableEq

/-- A child of the body: `CT_P`, `CT_Tbl` with the texts of its cells, or another element. -/
inductive BodyChild where
  | paragraph (text : List Char) (style : Option ParagraphStyle)
  | table (rows : List (List (List Char)))
  | other
  deriving DecidableEq

inductive DocumentError where
  | value
  | attribute
  deriving DecidableEq

/-! ## Heading levels -/

/-- What `str.isdigit` accepts that is no decimal digit, as ranges of code points. -/
def otherDigits : List (Nat × Nat) :=
  [(0xB2, 0xB3), (0xB9, 0xB9), (0x1369, 0x1371), (0x19DA, 0x19DA), (0x2070, 0x2070),
    (0x2074, 0x2079), (0x2080, 0x2089), (0x2460, 0x2468), (0x2474, 0x247C), (0x2488, 0x2490),
    (0x24EA, 0x24EA), (0x24F5, 0x24FD), (0x24FF, 0x24FF), (0x2776, 0x277E), (0x2780, 0x2788),
    (0x278A, 0x2792), (0x10A40, 0x10A43), (0x10E60, 0x10E68), (0x11052, 0x1105A), (0x1F100, 0x1F10A)]

/-- `str.isdigit` -/
def isDigitText (s : List Char) : Bool :=
  !s.isEmpty && s.all fun c =>
    isDecimal c || otherDigits.any fun r => r.1 ≤ c.toNat && c.toNat ≤ r.2

def decimalValue (c : Char) : Nat :=
  ((decimalZeros.find? fun first => first ≤ c.toNat && c.toNat < first + 10).map fun first =>
    c.toNat - first).getD 0

/-- `sys.int_info.default_max_str_digits` -/
def maxStrDigits : Nat := 4300

/-- `int` of a text that `isdigit` accepts. -/
def intOfDigits (s : List Char) : Except DocumentError Nat :=
  if s.all isDecimal ∧ s.length ≤ maxStrDigits then
    .ok (s.foldl (fun n c => 10 * n + decimalValue c) 0)
  else .error .value

/-- `removeprefix` -/
def removePrefix (p s : List Char) : List Char :=
  if p.isPrefixOf s then s.drop p.length else s

/-- `_heading_level`: no character but the ASCII letters becomes one of "heading" in `lower`, and the
one that becomes two, "İ", does not begin it. -/
def headingLevelOf (style : Option ParagraphStyle) : Except DocumentError (Option Nat) :=
  match style with
  | none => .ok none
  | some ⟨none⟩ => .error .attribute
  | some ⟨some styleName⟩ =>
    if (styleName.take 7).map Char.toLower = "heading".toList then
      let suffix := trimSpace (removePrefix "Heading".toList styleName)
      if isDigitText suffix then (intOfDigits suffix).map some else .ok none
    else .ok none

/-! ## Reading -/

/-- `" | ".join` -/
def joinBars (parts : List (List Char)) : List Char := [' ', '|', ' '].intercalate parts

/-- `_looks_like_template` -/
def looksLikeTemplate (text : List Char) : Bool :=
  ["待填写", "模板", "格式", "盖章", "签字"].any fun marker => contains marker.toList text

/-- `stack[: i]` -/
def sliceTo {α : Type} (i : Int) (stack : List α) : List α :=
  if 0 ≤ i then stack.take i.toNat else stack.take (stack.length - (-i).toNat)

/-- `_iter_document_blocks`, from a child on. -/
def iterDocumentBlocks : Nat → Nat → List (List Char) → List BodyChild →
    Except DocumentError (List TenderDocumentBlock)
  | _, _, _, [] => .ok []
  | order, paragraphNumber, headingStack, .paragraph content style :: children => do
    let text := trimSpace content
    if text = [] then iterDocumentBlocks (order + 1) (paragraphNumber + 1) headingStack children
    else
      let headingLevel ← headingLevelOf style
      let stack := match headingLevel with
        | some level => sliceTo (level - 1) headingStack ++ [text]
        | none => headingStack
      let blocks ← iterDocumentBlocks (order + 1) (paragraphNumber + 1) stack children
      pure ({ blockId := "evidence-" ++ toString order
              kind := .paragraph
              text
              styleName := style.bind ParagraphStyle.name
              headingLevel
              order
              headingPath := stack
              isTemplate := looksLikeTemplate text
              paragraphNumber := some (paragraphNumber + 1) } :: blocks)
  | order, paragraphNumber, headingStack, .table cells :: children => do
    let rows := cells.map fun row => row.map trimSpace
    let text := trimSpace (joinBars ((rows.filter fun row => row.any (· ≠ [])).map joinBars))
    if text = [] then iterDocumentBlocks (order + 1) paragraphNumber headingStack children
    else
      let blocks ← iterDocumentBlocks (order + 1) paragraphNumber headingStack children
      pure ({ blockId := "evidence-" ++ toString order
              kind := .table
              text
              tableRows := rows
              order
              headingPath := headingStack
              tableHeader := rows.headD []
              isTemplate := looksLikeTemplate text } :: blocks)
  | order, paragraphNumber, headingStack, .other :: children =>
    iterDocumentBlocks (order + 1) paragraphNumber headingStack children

/-- `tuple(_iter_document_blocks(document))` -/
def documentBlocks (body : List BodyChild) : Except DocumentError (List TenderDocumentBlock) :=
  iterDocumentBlocks 1 0 [] body

/-! ## Open headings -/

section Open

variable {α : Type}

/-- The headings that no later heading of the same or a lower level closes. -/
def openHeadings : List (Nat × α) → List (Nat × α)
  | [] => []
  | h :: hs => if hs.all fun later => h.1 < later.1 then h :: openHeadings hs else openHeadings hs

variable {hs : List (Nat × α)} {h : Nat × α}

/-- A heading closes those of its level and deeper. -/
theorem openHeadings_append : openHeadings (hs ++ [h]) =
    (openHeadings hs).filter (fun g => decide (g.1 < h.1)) ++ [h] := by
  induction hs with
  | nil => simp [openHeadings]
  | cons g gs ih =>
    rw [List.cons_append, openHeadings, openHeadings, ih, List.all_append]
    by_cases hgs : gs.all fun later => g.1 < later.1
    · by_cases hg : g.1 < h.1
      · simp [hgs, hg]
      · simp [hgs, hg]
    · simp [hgs]

theorem mem_openHeadings {g : Nat × α} (hg : g ∈ openHeadings hs) : g ∈ hs := by
  induction hs with
  | nil => exact hg
  | cons h hs ih =>
    rw [openHeadings] at hg
    split_ifs at hg
    · rcases List.mem_cons.1 hg with rfl | hg
      · exact List.mem_cons_self
      · exact List.mem_cons_of_mem h (ih hg)
    · exact List.mem_cons_of_mem h (ih hg)

/-- The open headings go down in the document, level by level. -/
theorem pairwise_openHeadings : (openHeadings hs).Pairwise fun a b => a.1 < b.1 := by
  induction hs with
  | nil => exact List.Pairwise.nil
  | cons h hs ih =>
    rw [openHeadings]
    split_ifs with hall
    · refine List.pairwise_cons.2 ⟨fun g hg => ?_, ih⟩
      simpa using List.all_eq_true.1 hall g (mem_openHeadings hg)
    · exact ih

end Open

/-! ## The paths -/

/-- The heading that a child of the body is. -/
def headingOf : BodyChild → Option (Nat × List Char)
  | .paragraph content style =>
    if trimSpace content = [] then none
    else ((headingLevelOf style).toOption.bind id).map fun level => (level, trimSpace content)
  | _ => none

/-- The headings open after a part of the body. -/
def openAfter (part : List BodyChild) : List (Nat × List Char) :=
  openHeadings (part.filterMap headingOf)

/-- Of the open headings, those above a level are as many as the level is cut to. -/
def CutsRight (headings : List (Nat × List Char)) (level : Nat) : Prop :=
  (headings.filter fun h => decide (h.1 < level)).length =
    if level = 0 then headings.length - 1 else min (level - 1) headings.length

section Paths

variable {body part rest children : List BodyChild} {child : BodyChild}
  {headings : List (Nat × List Char)} {stack : List (List Char)}
  {blocks : List TenderDocumentBlock} {order paragraphNumber level : Nat} {text : List Char}

/-- In a list of increasing levels those below a level come first. -/
theorem filter_eq_take (hpairwise : headings.Pairwise fun a b => a.1 < b.1) :
    headings.filter (fun h => decide (h.1 < level)) =
      headings.take (headings.filter fun h => decide (h.1 < level)).length := by
  induction headings with
  | nil => rfl
  | cons h hs ih =>
    rw [List.pairwise_cons] at hpairwise
    by_cases hlevel : h.1 < level
    · rw [List.filter_cons, if_pos (by simpa using hlevel), List.length_cons, List.take_succ_cons,
        ← ih hpairwise.2]
    · have hnone : hs.filter (fun g => decide (g.1 < level)) = [] := by
        rw [List.filter_eq_nil_iff]
        intro g hg
        have := hpairwise.1 g hg
        simp only [decide_eq_true_eq]
        omega
      rw [List.filter_cons, if_neg (by simpa using hlevel), hnone]
      rfl

theorem sliceTo_level : sliceTo ((level : Int) - 1) stack =
    stack.take (if level = 0 then stack.length - 1 else min (level - 1) stack.length) := by
  by_cases hlevel : level = 0
  · subst hlevel
    rfl
  · rw [sliceTo, if_pos (by omega), if_neg hlevel]
    have hnat : ((level : Int) - 1).toNat = level - 1 := by omega
    rw [hnat, ← List.take_length (l := stack), List.take_take, List.take_length]

/-- The slice is right if and only if it leaves as many headings as are above the level. -/
theorem sliceTo_right_iff (hpairwise : headings.Pairwise fun a b => a.1 < b.1) :
    sliceTo ((level : Int) - 1) (headings.map Prod.snd) =
        (headings.filter fun h => decide (h.1 < level)).map Prod.snd ↔
      CutsRight headings level := by
  rw [sliceTo_level, CutsRight, List.length_map]
  constructor
  · intro h
    have hlen := congrArg List.length h
    rw [List.length_take, List.length_map, List.length_map] at hlen
    split_ifs at hlen ⊢ <;> omega
  · intro h
    rw [← h, ← List.map_take, ← filter_eq_take hpairwise]

theorem openAfter_none (hchild : headingOf child = none) :
    openAfter (part ++ [child]) = openAfter part := by
  rw [openAfter, openAfter, List.filterMap_append, List.filterMap_cons_none hchild,
    List.filterMap_nil, List.append_nil]

theorem openAfter_some (hchild : headingOf child = some (level, text)) :
    openAfter (part ++ [child]) =
      (openAfter part).filter (fun h => decide (h.1 < level)) ++ [(level, text)] := by
  rw [openAfter, openAfter, List.filterMap_append, List.filterMap_cons_some hchild,
    List.filterMap_nil, openHeadings_append]

/-- The blocks of the rest of a body have the right paths. -/
def PathsRight (body : List BodyChild) (blocks : List TenderDocumentBlock) : Prop :=
  ∀ block ∈ blocks, block.headingPath = (openAfter (body.take block.order)).map Prod.snd

/-- The headings of the rest of a body find as many open headings as their levels are cut to. -/
def HeadingsCut (part rest : List BodyChild) : Prop :=
  ∀ i (hi : i < rest.length) level text, headingOf rest[i] = some (level, text) →
    CutsRight (openAfter (part ++ rest.take i)) level

theorem headingsCut_nil : HeadingsCut part [] := fun i hi => absurd hi (Nat.not_lt_zero i)

theorem headingsCut_cons : HeadingsCut part (child :: rest) ↔
    (∀ level text, headingOf child = some (level, text) → CutsRight (openAfter part) level) ∧
      HeadingsCut (part ++ [child]) rest := by
  constructor
  · intro h
    refine ⟨fun level text hchild => ?_, fun i hi level text hchild => ?_⟩
    · have h0 := h 0 (Nat.succ_pos _) level text hchild
      rwa [List.take_zero, List.append_nil] at h0
    · have hi' := h (i + 1) (Nat.succ_lt_succ hi) level text hchild
      rwa [List.take_succ_cons, List.append_cons] at hi'
  · rintro ⟨hhead, htail⟩ i hi level text hchild
    cases i with
    | zero =>
      rw [List.take_zero, List.append_nil]
      exact hhead level text hchild
    | succ i =>
      rw [List.take_succ_cons, List.append_cons]
      exact htail i (Nat.lt_of_succ_lt_succ hi) level text hchild

theorem pathsRight_cons {block : TenderDocumentBlock} (horder : block.order = part.length + 1) :
    PathsRight (part ++ child :: children) (block :: blocks) ↔
      block.headingPath = (openAfter (part ++ [child])).map Prod.snd ∧
        PathsRight ((part ++ [child]) ++ children) blocks := by
  have htake : (part ++ child :: children).take (part.length + 1) = part ++ [child] := by
    rw [List.append_cons, List.take_left' (by simp)]
  rw [PathsRight, List.forall_mem_cons, horder, htake, PathsRight, ← List.append_cons]

/-- A child that is no heading leaves the stack as it is. -/
theorem headingsCut_none (hchild : headingOf child = none) :
    HeadingsCut part (child :: children) ↔ HeadingsCut (part ++ [child]) children := by
  rw [headingsCut_cons, hchild]
  simp

/-- A heading is put on the right stack if and only if it is cut to the headings above it. -/
theorem stack_right_iff (hstack : stack = (openAfter part).map Prod.snd)
    (hchild : headingOf child = some (level, text)) :
    sliceTo ((level : Int) - 1) stack ++ [text] = (openAfter (part ++ [child])).map Prod.snd ↔
      CutsRight (openAfter part) level := by
  rw [openAfter_some hchild, List.map_append, hstack, List.map_singleton, List.append_left_inj]
  exact sliceTo_right_iff pairwise_openHeadings

/-- Reading from a child on, with the right stack. -/
theorem pathsRight_iff (part : List BodyChild) (hstack : stack = (openAfter part).map Prod.snd)
    (hblocks : iterDocumentBlocks (part.length + 1) paragraphNumber stack rest = .ok blocks) :
    PathsRight (part ++ rest) blocks ↔ HeadingsCut part rest := by
  induction rest generalizing part stack blocks paragraphNumber with
  | nil =>
    cases hblocks
    exact ⟨fun _ => headingsCut_nil, fun _ _ h => nomatch h⟩
  | cons child children ih =>
    have hnext : ∀ {stack blocks number}, stack = (openAfter (part ++ [child])).map Prod.snd →
        iterDocumentBlocks (part.length + 1 + 1) number stack children = .ok blocks →
        (PathsRight ((part ++ [child]) ++ children) blocks ↔
          HeadingsCut (part ++ [child]) children) := by
      intro stack blocks number hstack hblocks
      apply ih (part ++ [child]) hstack
      rw [List.length_append]
      exact hblocks
    have hsame : headingOf child = none → stack = (openAfter (part ++ [child])).map Prod.snd :=
      fun hchild => by rw [openAfter_none hchild, hstack]
    cases child with
    | other =>
      rw [headingsCut_none rfl, List.append_cons]
      exact hnext (hsame rfl) hblocks
    | table cells =>
      rw [headingsCut_none rfl]
      simp only [iterDocumentBlocks] at hblocks
      split_ifs at hblocks with htext
      · rw [List.append_cons]
        exact hnext (hsame rfl) hblocks
      · simp only [except_bind_ok, except_pure_ok] at hblocks
        rcases hblocks with ⟨others, hothers, rfl⟩
        rw [pathsRight_cons rfl, hnext (hsame rfl) hothers, ← hsame rfl, eq_self, true_and]
    | paragraph content style =>
      simp only [iterDocumentBlocks] at hblocks
      split_ifs at hblocks with htext
      · have hchild : headingOf (.paragraph content style) = none := by
          rw [headingOf, if_pos htext]
        rw [headingsCut_none hchild, List.append_cons]
        exact hnext (hsame hchild) hblocks
      · simp only [except_bind_ok, except_pure_ok] at hblocks
        rcases hblocks with ⟨headingLevel, hlevel, others, hothers, rfl⟩
        cases headingLevel with
        | none =>
          have hchild : headingOf (.paragraph content style) = none := by
            rw [headingOf, if_neg htext, hlevel]
            rfl
          rw [headingsCut_none hchild, pathsRight_cons rfl, hnext (hsame hchild) hothers,
            ← hsame hchild, eq_self, true_and]
        | some level =>
          have hchild : headingOf (.paragraph content style) = some (level, trimSpace content) := by
            rw [headingOf, if_neg htext, hlevel]
            rfl
          have hright := stack_right_iff hstack hchild
          rw [headingsCut_cons, pathsRight_cons rfl, hchild]
          constructor
          · rintro ⟨hpath, hothers'⟩
            refine ⟨?_, (hnext hpath hothers).1 hothers'⟩
            intro _ _ h
            cases h
            exact hright.1 hpath
          · rintro ⟨hcut, hothers'⟩
            have hpath := hright.2 (hcut level _ rfl)
            exact ⟨hpath, (hnext hpath hothers).2 hothers'⟩

/-- **When the paths are right.** Every block has the path of the headings open at it, its own among
them, if and only if at every heading the number of open headings above its level is what the slice
leaves: `level - 1`, or all of them if there are fewer. -/
theorem heading_paths_iff (hblocks : documentBlocks body = .ok blocks) :
    (∀ block ∈ blocks, block.headingPath = (openAfter (body.take block.order)).map Prod.snd) ↔
      ∀ i (hi : i < body.length) level text, headingOf body[i] = some (level, text) →
        CutsRight (openAfter (body.take i)) level :=
  pathsRight_iff [] rfl hblocks

end Paths

def headingStyle (level : Char) : ParagraphStyle where
  name := some ("Heading ".toList ++ [level])

/-- A chapter, and in it two headings of the third level. -/
def skippedLevels : List BodyChild :=
  [.paragraph ['a'] (some (headingStyle '1')), .paragraph ['b'] (some (headingStyle '3')),
    .paragraph ['c'] (some (headingStyle '3'))]

theorem skipped_level_paths :
    ∃ blocks, documentBlocks skippedLevels = .ok blocks ∧
      ((∀ block ∈ blocks,
          block.headingPath = (openAfter (skippedLevels.take block.order)).map Prod.snd) ↔
        ∀ i (hi : i < skippedLevels.length) level text,
          headingOf skippedLevels[i] = some (level, text) →
            CutsRight (openAfter (skippedLevels.take i)) level) := by
  cases hblocks : documentBlocks skippedLevels with
  | error e =>
    have hok : (documentBlocks skippedLevels).isOk = true := by decide
    rw [hblocks] at hok
    cases hok
  | ok blocks => exact ⟨blocks, rfl, heading_paths_iff hblocks⟩

/-- The second heading of the third level stands under the first. -/
theorem sibling_not_closed : ¬∀ (body : List BodyChild) (blocks : List TenderDocumentBlock),
    documentBlocks body = .ok blocks →
      ∀ block ∈ blocks, block.headingPath = (openAfter (body.take block.order)).map Prod.snd := by
  intro h
  cases hblocks : documentBlocks skippedLevels with
  | error e =>
    have hok : (documentBlocks skippedLevels).isOk = true := by decide
    rw [hblocks] at hok
    cases hok
  | ok blocks =>
    have hcut := (pathsRight_iff [] rfl hblocks).1 (h skippedLevels _ hblocks) 2 (by decide) 3 ['c']
      (by decide)
    exact absurd hcut (by unfold CutsRight; decide)

end GoAgent.Tender.Documents
