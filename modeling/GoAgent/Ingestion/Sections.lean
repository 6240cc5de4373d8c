import GoAgent.Foundation.Text
import Mathlib.Algebra.Ring.Nat
import Mathlib.Data.List.Sort
import Mathlib.Data.List.Induction

/-!
# Splitting a document into sections

`PolicySectionSplitter.split` starts a section at every line that is a chapter, a section or an
article heading. The path it gives the section is kept as a list of titles: a heading of level `l`
keeps the first `l - 1` of them. The headings that are still open are another matter: a heading
closes those of its own level and below.

**Theorem (`paths_iff`).** The paths are the chains of open headings exactly when every heading
finds, among the first `l - 1` open headings, only headings of smaller levels.

* `rebuildPath_eq` — the slice of the old path that a heading keeps.
* `headed_paths` — the loop attaches to the sections the paths that `rebuild_path` builds.
-/

namespace GoAgent.Ingestion

open GoAgent.Foundation

/-! ## Text -/

/-- `re.sub(r"\s+", " ", text)` -/
def collapseSpaces : List Char → List Char
  | [] => []
  | c :: cs =>
    if isSpace c then
      if (cs.head?.map isSpace).getD false then collapseSpaces cs else ' ' :: collapseSpaces cs
    else c :: collapseSpaces cs

/-- What `str.splitlines` splits at. -/
def isLineBreak (c : Char) : Bool :=
  let n := c.toNat
  (10 ≤ n && n ≤ 13) || (28 ≤ n && n ≤ 30) || n == 0x85 || n == 0x2028 || n == 0x2029

/-- `text.splitlines()`, with the line read so far. -/
def splitLines (line : List Char) : List Char → List String
  | [] => if line = [] then [] else [String.ofList line]
  | '\r' :: '\n' :: cs => String.ofList line :: splitLines [] cs
  | c :: cs =>
    if isLineBreak c then String.ofList line :: splitLines [] cs else splitLines (line ++ [c]) cs

/-! ## Headings -/

inductive HeadingLevel where
  | chapter | section | article
  deriving DecidableEq

def HeadingLevel.number : HeadingLevel → Nat
  | .chapter => 1
  | .section => 2
  | .article => 3

/-- The last character of the number of a heading. -/
def HeadingLevel.unit : HeadingLevel → Char
  | .chapter => '章'
  | .section => '节'
  | .article => '条'

structure SectionHeading where
  sectionNo : String
  sectionTitle : String
  sectionLevel : HeadingLevel
  deriving DecidableEq

/-- `[一二三四五六七八九十百千万零〇两0-9]` -/
def isNumeral (c : Char) : Bool := c ∈ "一二三四五六七八九十百千万零〇两".toList || isDigit c

/-- `[，。；：！？]` -/
def isBodyPunctuation (c : Char) : Bool := c ∈ "，。；：！？".toList

/-- `^(第[…]+章)\s*(.*)$` on a stripped line, and the same for the other levels: the two groups. -/
def matchPattern (level : HeadingLevel) : List Char → Option (String × String)
  | '第' :: cs =>
    match cs.takeWhile isNumeral, cs.dropWhile isNumeral with
    | [], _ => none
    | _, [] => none
    | numerals, unit :: tail =>
      if unit = level.unit then
        let raw := tail.dropWhile isSpace
        -- `.` does not match a line feed
        if '\n' ∈ raw then none
        else some (String.ofList ('第' :: numerals ++ [unit]), String.ofList raw)
      else none
  | _ => none

def articleTitleMaxLength : Nat := 18

def genericTitleMaxLength : Nat := 40

def looksLikeArticleBody (title : String) : Bool :=
  articleTitleMaxLength < title.length || title.toList.any isBodyPunctuation

def resolveSectionTitle (sectionNo rawTitle : String) (level : HeadingLevel) : String :=
  if rawTitle = "" then sectionNo
  else
    let title := strip (String.ofList (collapseSpaces rawTitle.toList))
    if title = "" then sectionNo
    else if level = .article ∧ looksLikeArticleBody title then sectionNo
    else if genericTitleMaxLength < title.length ∧ title.toList.any isBodyPunctuation then sectionNo
    else title

def matchLevel (stripped : List Char) (level : HeadingLevel) : Option SectionHeading :=
  (matchPattern level stripped).map fun groups =>
    { sectionNo := groups.1
      sectionTitle := resolveSectionTitle groups.1 (strip groups.2) level
      sectionLevel := level }

def matchHeading (line : String) : Option SectionHeading :=
  [.chapter, .section, .article].findSome? (matchLevel (strip line).toList)

def rebuildPath (currentPath : List String) (heading : SectionHeading) : List String :=
  let level := heading.sectionLevel.number
  if level ≤ 1 then [heading.sectionTitle]
  else if currentPath.length < level - 1 then currentPath ++ [heading.sectionTitle]
  else currentPath.take (level - 1) ++ [heading.sectionTitle]

/-! ## The splitter -/

structure AssembledLine where
  text : String
  pageNo : Option Int := none
  sourceBlockOrder : Option Int := none
  deriving DecidableEq

structure CleanedTextResult where
  cleanText : String
  pageCount : Option Int := none
  lines : List AssembledLine := []
  removedNoiseExamples : List String := []
  notes : List String := []

structure SectionSplitItem where
  sectionNo : Option String := none
  sectionTitle : Option String := none
  sectionLevel : Nat
  sectionPath : Option String := none
  sectionOrder : Nat
  sectionText : String
  pageStart : Option Int := none
  pageEnd : Option Int := none
  sourceBlockStart : Option Int := none
  sourceBlockEnd : Option Int := none
  deriving DecidableEq

structure SectionSplitResult where
  totalSections : Nat
  strategy : String
  sections : List SectionSplitItem
  notes : List String

/-- The variables of the loop of `split`. -/
structure SplitState where
  sections : List SectionSplitItem := []
  currentLines : List AssembledLine := []
  currentNo : Option String := none
  currentTitle : Option String := none
  currentLevel : Nat := 1
  currentPath : List String := []
  sawHeading : Bool := false

def buildLines (cleanedText : CleanedTextResult) : List AssembledLine :=
  if cleanedText.lines ≠ [] then cleanedText.lines
  else (splitLines [] cleanedText.cleanText.toList).map fun line => { text := line }

def shouldKeepPreface (lines : List String) : Bool :=
  let joined := strip ("".intercalate lines)
  if joined = "" then false
  else
    let singleCharLines := lines.countP fun line => (strip line).length = 1
    let shortLines := lines.countP fun line => (strip line).length ≤ 4
    if 2 ≤ singleCharLines then false
    else if lines.length ≤ 5 ∧ joined.length ≤ 24 ∧ lines.length - 1 ≤ shortLines then false
    else true

def flushSection (s : SplitState) : List SectionSplitItem :=
  if s.currentLines = [] then s.sections
  else
    let sectionText := strip ("\n".intercalate (s.currentLines.map AssembledLine.text))
    if sectionText = "" then s.sections
    else s.sections ++ [
      { sectionNo := s.currentNo
        sectionTitle := s.currentTitle
        sectionLevel := s.currentLevel
        sectionPath := if s.currentPath = [] then none else some (" / ".intercalate s.currentPath)
        sectionOrder := s.sections.length
        sectionText
        pageStart := s.currentLines.head?.bind AssembledLine.pageNo
        pageEnd := s.currentLines.getLast?.bind AssembledLine.pageNo
        sourceBlockStart := s.currentLines.head?.bind AssembledLine.sourceBlockOrder
        sourceBlockEnd := s.currentLines.getLast?.bind AssembledLine.sourceBlockOrder }]

/-- The lines before the first heading are dropped when they look like a cover page. -/
def dropPreface (s : SplitState) : SplitState :=
  if !s.sawHeading && s.currentLines ≠ [] &&
      !shouldKeepPreface (s.currentLines.map AssembledLine.text) then
    { s with currentLines := [] }
  else s

/-- The body of the loop. -/
def splitLine (s : SplitState) (line : AssembledLine) : SplitState :=
  match matchHeading line.text with
  | none => { s with currentLines := s.currentLines ++ [line] }
  | some heading =>
    { sections := flushSection (dropPreface s)
      currentLines := [line]
      currentNo := some heading.sectionNo
      currentTitle := some heading.sectionTitle
      currentLevel := heading.sectionLevel.number
      currentPath := rebuildPath s.currentPath heading
      sawHeading := true }

/-- The section of a document without headings. -/
def fullText (cleanedText : CleanedTextResult) (lines : List AssembledLine) : SectionSplitItem where
  sectionTitle := some "全文"
  sectionLevel := 1
  sectionPath := some "全文"
  sectionOrder := 0
  sectionText := cleanedText.cleanText
  pageStart := lines.head?.bind AssembledLine.pageNo
  pageEnd := lines.getLast?.bind AssembledLine.pageNo
  sourceBlockStart := lines.head?.bind AssembledLine.sourceBlockOrder
  sourceBlockEnd := lines.getLast?.bind AssembledLine.sourceBlockOrder

def linesOf (cleanedText : CleanedTextResult) : List AssembledLine :=
  (buildLines cleanedText).filter fun line => !isBlank line.text

def split (cleanedText : CleanedTextResult) : SectionSplitResult :=
  let lines := linesOf cleanedText
  if lines = [] then
    { totalSections := 0, strategy := "chapter-article", sections := [],
      notes := ["清洗后没有可用内容。"] }
  else
    let s := lines.foldl splitLine {}
    let sections := if s.sawHeading then flushSection s else [fullText cleanedText lines]
    { totalSections := sections.length, strategy := "chapter-article", sections,
      notes := ["优先按章、节、条标题拆分；识别不到时退化为全文。"] }

variable {s : SplitState} {line : AssembledLine} {lines : List AssembledLine}
  {path stack : List SectionHeading} {h : SectionHeading} {hs : List SectionHeading}

/-! ## The paths that the loop attaches -/

theorem HeadingLevel.number_pos {level : HeadingLevel} : 0 < level.number := by
  cases level <;> decide

theorem rebuildPath_eq {titles : List String} :
    rebuildPath titles h = titles.take (h.sectionLevel.number - 1) ++ [h.sectionTitle] := by
  simp only [rebuildPath]
  split_ifs with hle hlt
  · rw [Nat.sub_eq_zero_of_le hle]
    rfl
  · rw [List.take_of_length_le (by omega)]
  · rfl

/-- `current_path` at each heading. -/
def builtPaths (titles : List String) : List SectionHeading → List (List String)
  | [] => []
  | h :: hs => rebuildPath titles h :: builtPaths (rebuildPath titles h) hs

/-- The paths of the sections that begin with a heading. -/
def headedPaths (sections : List SectionSplitItem) : List (Option String) :=
  (sections.filter fun item => item.sectionNo.isSome).map SectionSplitItem.sectionPath

def headings (lines : List AssembledLine) : List SectionHeading :=
  lines.filterMap fun line => matchHeading line.text

/-- The section being read, if it began with a heading. -/
def ownPath (s : SplitState) : List (Option String) :=
  if s.currentNo.isSome then [some (" / ".intercalate s.currentPath)] else []

/-- What holds between two lines. -/
structure Reading (s : SplitState) : Prop where
  saw : s.sawHeading = s.currentNo.isSome
  path : s.sawHeading = true → s.currentPath ≠ []
  shown : s.sawHeading = true → ∃ l ∈ s.currentLines, isBlank l.text = false

theorem mem_intercalate {sep text : String} {parts : List String} {c : Char} (hp : text ∈ parts)
    (hc : c ∈ text.toList) : c ∈ (sep.intercalate parts).toList := by
  induction parts with
  | nil => cases hp
  | cons part parts ih =>
    by_cases hnil : parts = []
    · rw [hnil, String.intercalate_singleton]
      rw [hnil, List.mem_singleton] at hp
      rwa [← hp]
    · rw [String.intercalate_cons_of_ne_nil hnil, String.toList_append, String.toList_append,
        List.mem_append, List.mem_append]
      rcases List.mem_cons.1 hp with rfl | hp
      · exact Or.inl (Or.inl hc)
      · exact Or.inr (ih hp)

theorem isBlank_intercalate {sep text : String} {parts : List String} (hp : text ∈ parts)
    (ht : isBlank text = false) : isBlank (sep.intercalate parts) = false := by
  obtain ⟨c, hc, hs⟩ := List.all_eq_false.1 ht
  exact isBlank_eq_false (mem_intercalate hp hc) (by simpa using hs)

theorem strip_eq_empty {text : String} (h : strip text = "") : isBlank text = true := by
  rw [← isBlank_strip, h]
  rfl

theorem headedPaths_append {items items' : List SectionSplitItem} :
    headedPaths (items ++ items') = headedPaths items ++ headedPaths items' := by
  rw [headedPaths, List.filter_append, List.map_append]
  rfl

theorem headed_flush (hr : Reading s) :
    headedPaths (flushSection s) = headedPaths s.sections ++ ownPath s := by
  by_cases hsaw : s.sawHeading = true
  · obtain ⟨l, hl, hblank⟩ := hr.shown hsaw
    have hno : s.currentNo.isSome = true := hr.saw ▸ hsaw
    have htext : isBlank ("\n".intercalate (s.currentLines.map AssembledLine.text)) = false :=
      isBlank_intercalate (List.mem_map_of_mem hl) hblank
    have hstrip : strip ("\n".intercalate (s.currentLines.map AssembledLine.text)) ≠ "" := by
      intro h
      rw [strip_eq_empty h] at htext
      cases htext
    simp only [flushSection, List.ne_nil_of_mem hl, hstrip, if_false, headedPaths_append]
    simp [headedPaths, ownPath, hno, hr.path hsaw]
  · have hno : s.currentNo.isSome = false := by rw [← hr.saw]; simpa using hsaw
    have hown : ownPath s = [] := by simp [ownPath, hno]
    rw [hown, List.append_nil]
    simp only [flushSection]
    by_cases hlines : s.currentLines = []
    · rw [if_pos hlines]
    · rw [if_neg hlines]
      split_ifs <;> simp [headedPaths, hno]

theorem dropPreface_eq : dropPreface s = s ∨
    dropPreface s = { s with currentLines := [] } ∧ s.sawHeading = false := by
  unfold dropPreface
  split_ifs with h
  · refine Or.inr ⟨rfl, ?_⟩
    simp only [Bool.and_eq_true, Bool.not_eq_true'] at h
    exact h.1.1
  · exact Or.inl rfl

theorem headed_flush_dropPreface (hr : Reading s) :
    headedPaths (flushSection (dropPreface s)) = headedPaths s.sections ++ ownPath s := by
  rcases dropPreface_eq (s := s) with h | ⟨h, hsaw⟩
  · rw [h, headed_flush hr]
  · rw [h, headed_flush (s := { s with currentLines := [] })
      ⟨hr.saw, hr.path, fun h => by simp [hsaw] at h⟩]
    rfl

/-- **The paths of the sections** are those that `rebuild_path` makes, heading after heading. -/
theorem headed_paths (hr : Reading s) (hlines : ∀ l ∈ lines, isBlank l.text = false) :
    headedPaths (flushSection (lines.foldl splitLine s)) =
      headedPaths s.sections ++ ownPath s ++
        (builtPaths s.currentPath (headings lines)).map fun titles =>
          some (" / ".intercalate titles) := by
  induction lines generalizing s with
  | nil => simpa [headings, builtPaths] using headed_flush hr
  | cons line lines ih =>
    have hrest : ∀ l ∈ lines, isBlank l.text = false := fun l hl => hlines l (List.mem_cons_of_mem _ hl)
    have hline := hlines line List.mem_cons_self
    rw [List.foldl_cons]
    cases hh : matchHeading line.text with
    | none =>
      have hstep : splitLine s line = { s with currentLines := s.currentLines ++ [line] } := by
        simp [splitLine, hh]
      have hread : Reading { s with currentLines := s.currentLines ++ [line] } := by
        refine ⟨hr.saw, hr.path, fun h => ?_⟩
        obtain ⟨l, hl, hblank⟩ := hr.shown h
        exact ⟨l, List.mem_append_left _ hl, hblank⟩
      have hnone : headings (line :: lines) = headings lines := List.filterMap_cons_none hh
      rw [hstep, ih hread hrest, hnone]
      rfl
    | some heading =>
      have hread : Reading (splitLine s line) := by
        simp only [splitLine, hh]
        refine ⟨rfl, fun _ => ?_, fun _ => ⟨line, List.mem_singleton_self _, hline⟩⟩
        rw [rebuildPath_eq]
        exact List.append_ne_nil_of_right_ne_nil _ (List.cons_ne_nil _ _)
      have hsome : headings (line :: lines) = heading :: headings lines :=
        List.filterMap_cons_some hh
      rw [ih hread hrest, hsome]
      simp only [splitLine, hh, headed_flush_dropPreface hr, ownPath, builtPaths, Option.isSome_some,
        if_true, List.map_cons, List.append_assoc, List.singleton_append]

/-! ## The chain of open headings -/

/-- A heading closes the headings of its level and below. -/
def opened (stack : List SectionHeading) (h : SectionHeading) : List SectionHeading :=
  stack.filter (fun g => g.sectionLevel.number < h.sectionLevel.number) ++ [h]

/-- The headings open after the given ones. -/
def openHeadings (hs : List SectionHeading) : List SectionHeading := hs.foldl opened []

/-- The path that a chain of headings makes. -/
def chainPath (chain : List SectionHeading) : Option String :=
  some (" / ".intercalate (chain.map SectionHeading.sectionTitle))

/-- The chain of each heading: the open headings it finds, and itself. -/
def chains (stack : List SectionHeading) : List SectionHeading → List (List SectionHeading)
  | [] => []
  | h :: hs => opened stack h :: chains (opened stack h) hs

/-- Of the open headings whose titles `rebuild_path` keeps, none is closed by this one. -/
def Fits (stack : List SectionHeading) (h : SectionHeading) : Prop :=
  ∀ g ∈ stack.take (h.sectionLevel.number - 1), g.sectionLevel.number < h.sectionLevel.number

/-- Every heading fits below those open before it. -/
def FitAll (stack : List SectionHeading) : List SectionHeading → Prop
  | [] => True
  | h :: hs => Fits stack h ∧ FitAll (opened stack h) hs

/-- The open headings are of ever deeper levels. -/
def Nested (stack : List SectionHeading) : Prop :=
  stack.Pairwise fun g g' => g.sectionLevel.number < g'.sectionLevel.number

theorem nested_opened (hn : Nested stack) : Nested (opened stack h) := by
  refine List.pairwise_append.2 ⟨hn.filter _, List.pairwise_singleton _ _, fun g hg g' hg' => ?_⟩
  rw [List.mem_singleton.1 hg']
  simpa using (List.mem_filter.1 hg).2

/-- The headings that stay open are the first ones. -/
theorem exists_closed (hn : Nested stack) (n : Nat) : ∃ closed,
    stack = stack.filter (fun g => g.sectionLevel.number < n) ++ closed ∧
      ∀ g ∈ closed, n ≤ g.sectionLevel.number := by
  induction stack with
  | nil => exact ⟨[], rfl, by simp⟩
  | cons g stack ih =>
    obtain ⟨hg, hrest⟩ := List.pairwise_cons.1 hn
    by_cases hlt : g.sectionLevel.number < n
    · obtain ⟨closed, heq, hclosed⟩ := ih hrest
      refine ⟨closed, ?_, hclosed⟩
      rw [List.filter_cons_of_pos (by simpa using hlt), List.cons_append, ← heq]
    · have hall : ∀ g' ∈ g :: stack, n ≤ g'.sectionLevel.number := by
        intro g' hg'
        rcases List.mem_cons.1 hg' with rfl | hg'
        · omega
        · have hlater := hg g' hg'
          omega
      refine ⟨g :: stack, ?_, hall⟩
      have hnone : (g :: stack).filter (fun g => g.sectionLevel.number < n) = [] :=
        List.filter_eq_nil_iff.2 fun g' hg' => by simpa using hall g' hg'
      rw [hnone]
      rfl

theorem length_filter_le (hn : Nested stack) (n : Nat) :
    (stack.filter fun g => g.sectionLevel.number < n).length ≤ n - 1 := by
  have hnodup : ((stack.filter fun g => g.sectionLevel.number < n).map
      fun g => g.sectionLevel.number).Nodup :=
    (List.pairwise_map.2 (hn.filter _)).imp fun h => Nat.ne_of_lt h
  have hsub : ((stack.filter fun g => g.sectionLevel.number < n).map
      fun g => g.sectionLevel.number) ⊆ List.range' 1 (n - 1) := by
    intro k hk
    obtain ⟨g, hg, rfl⟩ := List.mem_map.1 hk
    have hlt : g.sectionLevel.number < n := by simpa using (List.mem_filter.1 hg).2
    have hpos : 0 < g.sectionLevel.number := HeadingLevel.number_pos
    rw [List.mem_range'_1]
    omega
  have hle := (List.subperm_of_subset hnodup hsub).length_le
  rwa [List.length_map, List.length_range'] at hle

/-- The titles that `rebuild_path` keeps: those of the headings that stay open, and of the closed
ones that come first. -/
theorem exists_kept (hn : Nested stack) : ∃ closed,
    stack.take (h.sectionLevel.number - 1) =
      stack.filter (fun g => g.sectionLevel.number < h.sectionLevel.number) ++ closed ∧
      (closed = [] ↔ Fits stack h) := by
  obtain ⟨closed, heq, hclosed⟩ := exists_closed hn h.sectionLevel.number
  have hle := length_filter_le hn h.sectionLevel.number
  have htake : stack.take (h.sectionLevel.number - 1) =
      stack.filter (fun g => g.sectionLevel.number < h.sectionLevel.number) ++
        closed.take (h.sectionLevel.number - 1 -
          (stack.filter fun g => g.sectionLevel.number < h.sectionLevel.number).length) := by
    conv_lhs => rw [heq]
    rw [List.take_append, List.take_of_length_le hle]
  refine ⟨_, htake, ?_⟩
  unfold Fits
  rw [htake]
  constructor
  · intro hnil g hg
    rw [hnil, List.append_nil] at hg
    simpa using (List.mem_filter.1 hg).2
  · intro hfits
    refine List.eq_nil_iff_forall_not_mem.2 fun g hg => ?_
    have hlt := hfits g (List.mem_append_right _ hg)
    have hge := hclosed g (List.mem_of_mem_take hg)
    omega

/-- What fits below the open headings, `rebuild_path` puts there. -/
theorem rebuildPath_of_fits (hn : Nested stack) (hf : Fits stack h) :
    rebuildPath (stack.map SectionHeading.sectionTitle) h =
      (opened stack h).map SectionHeading.sectionTitle := by
  obtain ⟨closed, htake, hclosed⟩ := exists_kept (h := h) hn
  rw [hclosed.2 hf, List.append_nil] at htake
  rw [rebuildPath_eq, ← List.map_take, htake, opened, List.map_append, List.map_singleton]

theorem length_intercalate {sep : String} {parts : List String} :
    (sep.intercalate parts).length =
      (parts.map String.length).sum + sep.length * (parts.length - 1) := by
  induction parts with
  | nil => rfl
  | cons part parts ih =>
    by_cases hnil : parts = []
    · simp [hnil]
    · have hpos : 0 < parts.length := List.length_pos_of_ne_nil hnil
      have hlen : parts.length = parts.length - 1 + 1 := by omega
      rw [String.intercalate_cons_of_ne_nil hnil, String.length_append, String.length_append, ih,
        List.map_cons, List.sum_cons, List.length_cons, Nat.add_sub_cancel, hlen,
        Nat.add_sub_cancel, Nat.mul_succ]
      omega

/-- What does not fit gets a longer path. -/
theorem path_of_not_fits (hn : Nested stack) (hf : ¬Fits stack h) :
    " / ".intercalate (rebuildPath (stack.map SectionHeading.sectionTitle) h) ≠
      " / ".intercalate ((opened stack h).map SectionHeading.sectionTitle) := by
  obtain ⟨closed, htake, hclosed⟩ := exists_kept (h := h) hn
  have hpos : 0 < closed.length := List.length_pos_of_ne_nil fun hnil => hf (hclosed.1 hnil)
  rw [rebuildPath_eq, ← List.map_take, htake, opened]
  intro heq
  have hlen := congrArg String.length heq
  rw [length_intercalate, length_intercalate] at hlen
  simp only [List.map_append, List.map_singleton, List.sum_append, List.sum_singleton,
    List.length_append, List.length_map, List.length_singleton, Nat.add_sub_cancel,
    show " / ".length = 3 from rfl] at hlen
  omega

theorem builtPaths_iff (hn : Nested stack) :
    (builtPaths (stack.map SectionHeading.sectionTitle) hs).map
        (fun titles => some (" / ".intercalate titles)) = (chains stack hs).map chainPath ↔
      FitAll stack hs := by
  induction hs generalizing stack with
  | nil => simp [builtPaths, chains, FitAll]
  | cons h hs ih =>
    simp only [builtPaths, chains, FitAll, List.map_cons, List.cons.injEq]
    by_cases hf : Fits stack h
    · rw [rebuildPath_of_fits hn hf, ih (nested_opened hn)]
      exact and_congr_left' (iff_of_true rfl hf)
    · refine iff_of_false (fun hpaths => ?_) fun h => hf h.1
      exact path_of_not_fits hn hf (Option.some.inj hpaths.1)

/-! ## The main theorem -/

theorem fitAll_iff : FitAll stack hs ↔
    ∀ before h after, hs = before ++ h :: after → Fits (before.foldl opened stack) h := by
  induction hs generalizing stack with
  | nil => exact iff_of_true trivial fun before h after heq => by simp at heq
  | cons h hs ih =>
    simp only [FitAll, ih]
    constructor
    · rintro ⟨hf, hrest⟩ before h' after heq
      cases before with
      | nil =>
        obtain ⟨rfl, rfl⟩ := List.cons.inj heq
        exact hf
      | cons g before =>
        obtain ⟨rfl, rfl⟩ := List.cons.inj heq
        exact hrest before h' after rfl
    · intro hall
      refine ⟨hall [] h hs rfl, fun before h' after heq => ?_⟩
      exact hall (h :: before) h' after (by rw [heq, List.cons_append])

/-- No heading finds, among the first open headings it keeps, one of its own level or below. -/
def HeadingsFit (hs : List SectionHeading) : Prop :=
  ∀ before h after, hs = before ++ h :: after → Fits (openHeadings before) h

theorem sawHeading_foldl : (lines.foldl splitLine s).sawHeading = true ↔
    s.sawHeading = true ∨ headings lines ≠ [] := by
  induction lines generalizing s with
  | nil => simp [headings]
  | cons line lines ih =>
    rw [List.foldl_cons, ih]
    cases hh : matchHeading line.text with
    | none =>
      have hnone : headings (line :: lines) = headings lines := List.filterMap_cons_none hh
      rw [hnone]
      simp [splitLine, hh]
    | some heading =>
      have hsome : headings (line :: lines) = heading :: headings lines :=
        List.filterMap_cons_some hh
      rw [hsome]
      simp [splitLine, hh]

theorem headed_split (cleanedText : CleanedTextResult) :
    headedPaths (split cleanedText).sections =
      (builtPaths [] (headings (linesOf cleanedText))).map fun titles =>
        some (" / ".intercalate titles) := by
  have hblank : ∀ l ∈ linesOf cleanedText, isBlank l.text = false := fun l hl => by
    simpa using (List.mem_filter.1 hl).2
  have hstart : Reading {} := ⟨rfl, fun h => (by cases h), fun h => (by cases h)⟩
  have hpaths := headed_paths hstart hblank
  by_cases hlines : linesOf cleanedText = []
  · simp only [split, hlines, if_true]
    rfl
  · by_cases hsaw : ((linesOf cleanedText).foldl splitLine {}).sawHeading = true
    · simp only [split, hlines, hsaw, if_false, if_true]
      exact hpaths
    · have hnone : headings (linesOf cleanedText) = [] := by
        by_contra hne
        exact hsaw (sawHeading_foldl.2 (Or.inr hne))
      simp only [split, hlines, hsaw, if_false, hnone]
      rfl

/-- **Paths.** The path of every section that begins with a heading is the chain of the headings
open there, followed by its own, exactly when every heading fits. -/
theorem paths_iff (cleanedText : CleanedTextResult) :
    headedPaths (split cleanedText).sections =
        (chains [] (headings (linesOf cleanedText))).map chainPath ↔
      HeadingsFit (headings (linesOf cleanedText)) := by
  rw [headed_split]
  exact Iff.trans (builtPaths_iff List.Pairwise.nil) fitAll_iff

/-- A chapter with two articles and no section between. -/
def twoArticles : CleanedTextResult where
  cleanText := ""
  lines := [{ text := "第一章 总则" }, { text := "第一条 目的" }, { text := "第二条 范围" }]

theorem article_under_article : ¬∀ cleanedText : CleanedTextResult,
    headedPaths (split cleanedText).sections =
      (chains [] (headings (linesOf cleanedText))).map chainPath := by
  intro h
  have hbuilt : headedPaths (split twoArticles).sections =
      [some "总则", some "总则 / 目的", some "总则 / 目的 / 范围"] := by decide +kernel
  have hchains : (chains [] (headings (linesOf twoArticles))).map chainPath =
      [some "总则", some "总则 / 目的", some "总则 / 范围"] := by decide +kernel
  have heq := h twoArticles
  rw [hbuilt, hchains] at heq
  exact absurd heq (by decide)

end GoAgent.Ingestion
