import GoAgent.Ingestion.Sections
import Mathlib.Data.List.Chain
import Mathlib.Data.List.Dedup

/-!
# Cleaning a document

`PolicyTextCleaner.clean` splits the text blocks of a document into lines, normalizes them, and
drops three kinds: lines of up to thirty characters that occur three times, page numbers, and blank
lines that follow a blank one. What its loop keeps is `keep`: a removed line ends a streak of blank
lines.

* `keeps_headings_iff` — a heading is lost exactly when it is short and occurs three times; a page
  number is no heading.
* `clean_stable_iff` — cleaning is idempotent and leaves no two adjacent blank lines exactly when no
  two blank lines have only removed lines between them.
-/

namespace GoAgent.Ingestion

open GoAgent.Foundation

structure ParsedTextResult where
  pageCount : Option Int := none
  lines : List AssembledLine := []

/-! ## Lines -/

/-- `text.replace("\r\n", "\n").replace("\r", "\n").replace("\u3000", " ")` -/
def unifyBreaks : List Char → List Char
  | [] => []
  | '\r' :: '\n' :: cs => '\n' :: unifyBreaks cs
  | c :: cs => (if c = '\r' then '\n' else if c = '\u3000' then ' ' else c) :: unifyBreaks cs

def isGap (c : Char) : Bool := c = ' ' || c = '\t'

/-- `re.sub(r"[ \t]+", " ", text)` -/
def collapseGaps : List Char → List Char
  | [] => []
  | c :: cs =>
    if isGap c then
      if (cs.head?.map isGap).getD false then collapseGaps cs else ' ' :: collapseGaps cs
    else c :: collapseGaps cs

def normalizedText (rawLine : List Char) : String := strip (String.ofList (collapseGaps rawLine))

/-- The lines of a text block. -/
def normalizedItem (item : AssembledLine) : List AssembledLine :=
  ((unifyBreaks item.text.toList).splitOn '\n').map fun rawLine =>
    { item with text := normalizedText rawLine }

def normalizedLines (parsedText : ParsedTextResult) : List AssembledLine :=
  parsedText.lines.flatMap normalizedItem

/-! ## Noise -/

/-- `_detect_repeated_noise` -/
def detectRepeatedNoise (lines : List String) : List String :=
  let counted := lines.filter fun line => line ≠ "" && line.length ≤ 30
  counted.dedup.filter fun line => 3 ≤ counted.count line

/-- `left\s*\d+\s*right`, on the whole line. -/
def isNumbered (left right : Char) : List Char → Bool
  | [] => false
  | c :: cs =>
    let digits := cs.dropWhile isSpace
    c = left && digits.takeWhile isDecimal ≠ [] &&
      (digits.dropWhile isDecimal).dropWhile isSpace = [right]

/-- `第\s*\d+\s*页` or `-\s*\d+\s*-` -/
def isPageNumber (line : String) : Bool :=
  isNumbered '第' '页' line.toList || isNumbered '-' '-' line.toList

/-! ## The cleaner -/

/-- The variables of the loop of `clean`. -/
structure CleanState where
  removedNoiseExamples : List String := []
  cleanedLines : List AssembledLine := []
  blankStreak : Nat := 0

/-- The body of the loop. -/
def cleanLine (repeatedNoise : List String) (s : CleanState) (line : AssembledLine) : CleanState :=
  if line.text = "" then
    { s with
      blankStreak := s.blankStreak + 1
      cleanedLines := if s.blankStreak + 1 ≤ 1 then s.cleanedLines ++ [line] else s.cleanedLines }
  else
    let s := { s with blankStreak := 0 }
    if line.text ∈ repeatedNoise then
      { s with removedNoiseExamples := s.removedNoiseExamples ++ [line.text] }
    else if isPageNumber line.text then
      { s with removedNoiseExamples := s.removedNoiseExamples ++ [line.text] }
    else { s with cleanedLines := s.cleanedLines ++ [line] }

def clean (parsedText : ParsedTextResult) : CleanedTextResult :=
  let lines := normalizedLines parsedText
  let repeatedNoise := detectRepeatedNoise (lines.map AssembledLine.text)
  let s := lines.foldl (cleanLine repeatedNoise) {}
  { cleanText := strip ("\n".intercalate (s.cleanedLines.map AssembledLine.text))
    pageCount := parsedText.pageCount
    lines := s.cleanedLines
    removedNoiseExamples := s.removedNoiseExamples.take 10
    notes := ["当前只做保守清洗。", "章、节、条编号会被刻意保留。"] }

variable {p : ParsedTextResult} {lines : List AssembledLine} {line : AssembledLine}
  {noise : List String} {text : String} {level : HeadingLevel} {cs : List Char}

/-! ## What the loop keeps -/

/-- A line that the loop removes. -/
def isNoise (noise : List String) (line : AssembledLine) : Bool :=
  line.text ∈ noise || isPageNumber line.text

/-- The lines that are kept; `fresh` says that the streak of blank lines is over. -/
def keep (noise : List String) (fresh : Bool) : List AssembledLine → List AssembledLine
  | [] => []
  | line :: lines =>
    if line.text = "" then if fresh then line :: keep noise false lines else keep noise false lines
    else if isNoise noise line then keep noise true lines
    else line :: keep noise true lines

theorem cleanedLines_foldl {s : CleanState} : (lines.foldl (cleanLine noise) s).cleanedLines =
    s.cleanedLines ++ keep noise (s.blankStreak = 0) lines := by
  induction lines generalizing s with
  | nil => simp [keep]
  | cons line lines ih =>
    rw [List.foldl_cons, ih]
    by_cases hblank : line.text = ""
    · by_cases hstreak : s.blankStreak = 0
      · simp [cleanLine, keep, hblank, hstreak]
      · simp [cleanLine, keep, hblank, hstreak]
    · by_cases hrepeated : line.text ∈ noise
      · simp [cleanLine, keep, isNoise, hblank, hrepeated]
      · by_cases hpage : isPageNumber line.text
        · simp [cleanLine, keep, isNoise, hblank, hrepeated, hpage]
        · simp [cleanLine, keep, isNoise, hblank, hrepeated, hpage]

/-- The repeated lines of a document. -/
def repeatedNoise (p : ParsedTextResult) : List String :=
  detectRepeatedNoise ((normalizedLines p).map AssembledLine.text)

theorem clean_lines : (clean p).lines = keep (repeatedNoise p) true (normalizedLines p) := by
  simp [clean, cleanedLines_foldl, repeatedNoise]

theorem keep_sublist {fresh : Bool} : (keep noise fresh lines).Sublist lines := by
  induction lines generalizing fresh with
  | nil => exact List.Sublist.refl _
  | cons line lines ih =>
    unfold keep
    split_ifs
    · exact ih.cons_cons line
    · exact ih.cons line
    · exact ih.cons line
    · exact ih.cons_cons line

/-- Of the lines with text, those that are no noise. -/
theorem filter_keep {fresh : Bool} {q : AssembledLine → Bool}
    (hq : ∀ line, q line = true → line.text ≠ "") : (keep noise fresh lines).filter q =
      lines.filter fun line => q line && !isNoise noise line := by
  induction lines generalizing fresh with
  | nil => rfl
  | cons line lines ih =>
    unfold keep
    rw [List.filter_cons]
    by_cases hblank : line.text = ""
    · have hline : q line = false := by
        cases h : q line with
        | false => rfl
        | true => exact absurd hblank (hq line h)
      cases fresh with
      | false => simp [hblank, hline, ih]
      | true => simp [hblank, hline, ih]
    · by_cases hnoise : isNoise noise line
      · simp [hblank, hnoise, ih]
      · by_cases hline : q line
        · simp [hblank, hnoise, hline, ih]
        · simp [hblank, hnoise, hline, ih]

theorem mem_detectRepeatedNoise {texts : List String} : text ∈ detectRepeatedNoise texts ↔
    text ≠ "" ∧ text.length ≤ 30 ∧ 3 ≤ texts.count text := by
  unfold detectRepeatedNoise
  simp only [List.mem_filter, List.mem_dedup, Bool.and_eq_true, decide_eq_true_eq]
  constructor
  · rintro ⟨⟨hmem, hne, hshort⟩, hcount⟩
    rw [List.count_filter (by simp [hne, hshort])] at hcount
    exact ⟨hne, hshort, hcount⟩
  · rintro ⟨hne, hshort, hcount⟩
    refine ⟨⟨List.count_pos_iff.1 (by omega), hne, hshort⟩, ?_⟩
    rwa [List.count_filter (by simp [hne, hshort])]

/-! ## Headings -/

def isHeading (line : AssembledLine) : Bool := (matchHeading line.text).isSome

theorem unit_mem_of_matchPattern {groups : String × String}
    (h : matchPattern level cs = some groups) : level.unit ∈ cs := by
  unfold matchPattern at h
  split at h
  · next tail =>
    split at h
    · cases h
    · cases h
    · next numerals unit tail' hdrop _ =>
      split_ifs at h with hunit
      · have hmem : level.unit ∈ tail.dropWhile isNumeral := by
          rw [hdrop, hunit]
          exact List.mem_cons_self
        exact List.mem_cons_of_mem _ ((List.dropWhile_sublist _).subset hmem)
  · cases h

theorem unit_mem_of_matchHeading {heading : SectionHeading} (h : matchHeading text = some heading) :
    ∃ level : HeadingLevel, level.unit ∈ text.toList := by
  unfold matchHeading at h
  obtain ⟨level, -, hlevel⟩ := List.exists_of_findSome?_eq_some h
  unfold matchLevel at hlevel
  obtain ⟨groups, hgroups, -⟩ := Option.map_eq_some_iff.1 hlevel
  exact ⟨level, mem_of_mem_strip (unit_mem_of_matchPattern hgroups)⟩

theorem mem_of_isNumbered {left right c : Char} (h : isNumbered left right cs = true)
    (hc : c ∈ cs) : c = left ∨ c = right ∨ isSpace c = true ∨ isDecimal c = true := by
  cases cs with
  | nil => cases hc
  | cons d ds =>
    simp only [isNumbered, Bool.and_eq_true, decide_eq_true_eq] at h
    obtain ⟨⟨rfl, -⟩, hright⟩ := h
    rcases List.mem_cons.1 hc with rfl | hc
    · exact Or.inl rfl
    have hsplit {q : Char → Bool} {l : List Char} (hl : c ∈ l) :
        q c = true ∨ c ∈ l.dropWhile q := by
      rw [← List.takeWhile_append_dropWhile (p := q) (l := l), List.mem_append] at hl
      exact hl.imp_left List.mem_takeWhile_imp
    rcases hsplit (q := isSpace) hc with hspace | hc
    · exact Or.inr (Or.inr (Or.inl hspace))
    rcases hsplit (q := isDecimal) hc with hdecimal | hc
    · exact Or.inr (Or.inr (Or.inr hdecimal))
    rcases hsplit (q := isSpace) hc with hspace | hc
    · exact Or.inr (Or.inr (Or.inl hspace))
    rw [hright] at hc
    exact Or.inr (Or.inl (List.mem_singleton.1 hc))

/-- The character of a level is neither a digit nor at the end of a page number. -/
theorem not_numbered_unit {left right : Char}
    (hends : ∀ level : HeadingLevel, level.unit ≠ left ∧ level.unit ≠ right) :
    ¬(level.unit = left ∨ level.unit = right ∨ isSpace level.unit = true ∨
      isDecimal level.unit = true) := by
  have hclass : isSpace level.unit = false ∧ isDecimal level.unit = false := by
    cases level <;> decide
  rintro (h | h | h | h)
  · exact (hends level).1 h
  · exact (hends level).2 h
  · rw [hclass.1] at h
    cases h
  · rw [hclass.2] at h
    cases h

/-- A page number is no heading. -/
theorem matchHeading_of_isPageNumber (h : isPageNumber text = true) : matchHeading text = none := by
  rw [Option.eq_none_iff_forall_ne_some]
  intro heading hheading
  obtain ⟨level, hunit⟩ := unit_mem_of_matchHeading hheading
  simp only [isPageNumber, Bool.or_eq_true] at h
  rcases h with h | h
  · exact not_numbered_unit (by rintro (_ | _ | _) <;> decide)
      (mem_of_isNumbered h hunit)
  · exact not_numbered_unit (by rintro (_ | _ | _) <;> decide)
      (mem_of_isNumbered h hunit)

theorem text_ne_of_isHeading (h : isHeading line = true) : line.text ≠ "" := by
  intro hblank
  unfold isHeading at h
  rw [hblank] at h
  revert h
  decide

/-- **The headings are kept** exactly when no heading of up to thirty characters occurs three
times. -/
theorem keeps_headings_iff (parsedText : ParsedTextResult) :
    (clean parsedText).lines.filter isHeading = (normalizedLines parsedText).filter isHeading ↔
      ∀ line ∈ normalizedLines parsedText, isHeading line = true → line.text.length ≤ 30 →
        ((normalizedLines parsedText).map AssembledLine.text).count line.text < 3 := by
  have hnoise (line : AssembledLine) (hheading : isHeading line = true) :
      isNoise (repeatedNoise parsedText) line = true ↔ line.text.length ≤ 30 ∧
        3 ≤ ((normalizedLines parsedText).map AssembledLine.text).count line.text := by
    have hpage : isPageNumber line.text = false := by
      cases h : isPageNumber line.text with
      | false => rfl
      | true =>
        unfold isHeading at hheading
        rw [matchHeading_of_isPageNumber h] at hheading
        cases hheading
    simp only [isNoise, repeatedNoise, hpage, Bool.or_false, decide_eq_true_eq,
      mem_detectRepeatedNoise]
    exact and_iff_right (text_ne_of_isHeading hheading)
  have hcomm : (normalizedLines parsedText).filter
      (fun line => isHeading line && !isNoise (repeatedNoise parsedText) line) =
        ((normalizedLines parsedText).filter isHeading).filter
          fun line => !isNoise (repeatedNoise parsedText) line := by
    rw [List.filter_filter]
    exact List.filter_congr fun line _ => Bool.and_comm _ _
  rw [clean_lines, filter_keep fun line h => text_ne_of_isHeading h, hcomm, List.filter_eq_self]
  constructor
  · intro h line hline hheading hshort
    have hkept := h line (List.mem_filter.2 ⟨hline, hheading⟩)
    by_contra hcount
    rw [(hnoise line hheading).2 ⟨hshort, Nat.not_lt.1 hcount⟩] at hkept
    cases hkept
  · intro h line hline
    obtain ⟨hmem, hheading⟩ := List.mem_filter.1 hline
    rw [Bool.not_eq_true', ← Bool.not_eq_true, hnoise line hheading]
    rintro ⟨hshort, hcount⟩
    exact absurd (h line hmem hheading hshort) (Nat.not_lt.2 hcount)

def article (text : String) : AssembledLine := { text }

/-- Three chapters, each with a section of the same name. -/
def threeChapters : ParsedTextResult where
  lines := [article "第一章 采购\n第一节 一般规定", article "第二章 付款\n第一节 一般规定",
    article "第三章 归档\n第一节 一般规定"]

theorem repeated_heading_dropped : ¬∀ parsedText : ParsedTextResult,
    (clean parsedText).lines.filter isHeading =
      (normalizedLines parsedText).filter isHeading := by
  intro h
  have hthree := congrArg List.length (h threeChapters)
  revert hthree
  decide +kernel

/-! ## Lines that are clean -/

/-- Not both are blank. -/
def NotBothBlank (line line' : AssembledLine) : Prop := ¬(line.text = "" ∧ line'.text = "")

/-- Two blank lines with nothing but removed lines between them, and at least one. -/
def NoiseBetweenBlanks (noise : List String) (lines : List AssembledLine) : Prop :=
  ∃ before blank between blank' after, lines = before ++ blank :: (between ++ blank' :: after) ∧
    blank.text = "" ∧ blank'.text = "" ∧ between ≠ [] ∧
      ∀ line ∈ between, line.text ≠ "" ∧ isNoise noise line = true

theorem NoiseBetweenBlanks.cons (h : NoiseBetweenBlanks noise lines) :
    NoiseBetweenBlanks noise (line :: lines) := by
  obtain ⟨before, blank, between, blank', after, rfl, hrest⟩ := h
  exact ⟨line :: before, blank, between, blank', after, rfl, hrest⟩

/-- What is kept begins with the blank line that ends the noise before it. -/
theorem head_keep_true {blank : AssembledLine} {rest : List AssembledLine}
    (h : keep noise true lines = blank :: rest) (hblank : blank.text = "") :
    ∃ between after, lines = between ++ blank :: after ∧
      ∀ line ∈ between, line.text ≠ "" ∧ isNoise noise line = true := by
  induction lines with
  | nil => cases h
  | cons line lines ih =>
    unfold keep at h
    by_cases hline : line.text = ""
    · rw [if_pos hline, if_pos rfl] at h
      obtain ⟨rfl, -⟩ := List.cons.inj h
      exact ⟨[], lines, rfl, fun line hmem => (by cases hmem)⟩
    · rw [if_neg hline] at h
      split_ifs at h with hnoise
      · obtain ⟨between, after, rfl, hbetween⟩ := ih h
        refine ⟨line :: between, after, rfl, fun line' hmem => ?_⟩
        rcases List.mem_cons.1 hmem with rfl | hmem
        · exact ⟨hline, hnoise⟩
        · exact hbetween line' hmem
      · obtain ⟨rfl, -⟩ := List.cons.inj h
        exact absurd hblank hline

/-- After a blank line, the next one that is kept comes after noise. -/
theorem head_keep_false {blank : AssembledLine} {rest : List AssembledLine} (hline : line.text = "")
    (h : keep noise false lines = blank :: rest) (hblank : blank.text = "") :
    NoiseBetweenBlanks noise (line :: lines) := by
  induction lines generalizing line with
  | nil => cases h
  | cons line' lines ih =>
    unfold keep at h
    by_cases hline' : line'.text = ""
    · rw [if_pos hline', if_neg Bool.false_ne_true] at h
      exact (ih hline' h).cons
    · rw [if_neg hline'] at h
      split_ifs at h with hnoise
      · obtain ⟨between, after, rfl, hbetween⟩ := head_keep_true h hblank
        refine ⟨[], line, line' :: between, blank, after, rfl, hline, hblank,
          List.cons_ne_nil _ _, fun l hmem => ?_⟩
        rcases List.mem_cons.1 hmem with rfl | hmem
        · exact ⟨hline', hnoise⟩
        · exact hbetween l hmem
      · obtain ⟨rfl, -⟩ := List.cons.inj h
        exact absurd hblank hline'

theorem isChain_keep {fresh : Bool} (h : ¬NoiseBetweenBlanks noise lines) :
    (keep noise fresh lines).IsChain NotBothBlank := by
  induction lines generalizing fresh with
  | nil => exact List.isChain_nil
  | cons line lines ih =>
    have hrest {fresh : Bool} : (keep noise fresh lines).IsChain NotBothBlank :=
      ih fun hbetween => h hbetween.cons
    unfold keep
    split_ifs with hblank hfresh hnoise
    · refine List.isChain_cons.2 ⟨fun next hnext hboth => ?_, hrest⟩
      obtain ⟨rest, hkeep⟩ : ∃ rest, keep noise false lines = next :: rest :=
        List.head?_eq_some_iff.1 hnext
      exact h (head_keep_false hblank hkeep hboth.2)
    · exact hrest
    · exact hrest
    · refine List.isChain_cons.2 ⟨fun next hnext hboth => hblank hboth.1, hrest⟩

/-- Whether the last line that is kept is blank, or the streak is over. -/
theorem keep_append (noise : List String) (fresh : Bool) (lines lines' : List AssembledLine) :
    ∃ fresh', keep noise fresh (lines ++ lines') =
        keep noise fresh lines ++ keep noise fresh' lines' ∧
      (fresh' = false → (fresh = false ∧ keep noise fresh lines = []) ∨
        ∃ init last, keep noise fresh lines = init ++ [last] ∧ last.text = "") := by
  induction lines generalizing fresh with
  | nil => exact ⟨fresh, rfl, fun h => Or.inl ⟨h, rfl⟩⟩
  | cons line lines ih =>
    simp only [List.cons_append, keep]
    split_ifs with hblank hfresh hnoise
    · obtain ⟨fresh', heq, hlast⟩ := ih false
      refine ⟨fresh', by rw [heq, List.cons_append], fun h => ?_⟩
      rcases hlast h with ⟨-, hnil⟩ | ⟨init, last, hkeep, hlastblank⟩
      · exact Or.inr ⟨[], line, by rw [hnil]; rfl, hblank⟩
      · exact Or.inr ⟨line :: init, last, by rw [hkeep]; rfl, hlastblank⟩
    · obtain ⟨fresh', heq, hlast⟩ := ih false
      refine ⟨fresh', heq, fun h => ?_⟩
      rcases hlast h with ⟨-, hnil⟩ | hlast
      · exact Or.inl ⟨by simpa using hfresh, hnil⟩
      · exact Or.inr hlast
    · obtain ⟨fresh', heq, hlast⟩ := ih true
      refine ⟨fresh', heq, fun h => ?_⟩
      rcases hlast h with ⟨htrue, -⟩ | hlast
      · cases htrue
      · exact Or.inr hlast
    · obtain ⟨fresh', heq, hlast⟩ := ih true
      refine ⟨fresh', by rw [heq, List.cons_append], fun h => ?_⟩
      rcases hlast h with ⟨htrue, -⟩ | ⟨init, last, hkeep, hlastblank⟩
      · cases htrue
      · exact Or.inr ⟨line :: init, last, by rw [hkeep]; rfl, hlastblank⟩

theorem keep_noise {fresh : Bool} {between after : List AssembledLine} (hne : between ≠ [])
    (hbetween : ∀ line ∈ between, line.text ≠ "" ∧ isNoise noise line = true) :
    keep noise fresh (between ++ after) = keep noise true after := by
  induction between generalizing fresh with
  | nil => exact absurd rfl hne
  | cons line lines ih =>
    obtain ⟨hline, hnoise⟩ := hbetween line List.mem_cons_self
    have hstep : keep noise fresh (line :: (lines ++ after)) =
        keep noise true (lines ++ after) := by
      simp only [keep, if_neg hline, if_pos hnoise]
    rw [List.cons_append, hstep]
    by_cases hnil : lines = []
    · rw [hnil, List.nil_append]
    · exact ih hnil fun l hl => hbetween l (List.mem_cons_of_mem _ hl)

theorem not_isChain_keep (h : NoiseBetweenBlanks noise lines) :
    ¬(keep noise true lines).IsChain NotBothBlank := by
  obtain ⟨before, blank, between, blank', after, rfl, hblank, hblank', hne, hbetween⟩ := h
  obtain ⟨fresh', heq, hlast⟩ :=
    keep_append noise true before (blank :: (between ++ blank' :: after))
  have hkeep : keep noise false (between ++ blank' :: after) =
      blank' :: keep noise false after := by
    rw [keep_noise hne hbetween, keep, if_pos hblank', if_pos rfl]
  rw [heq, keep, if_pos hblank, hkeep]
  intro hchain
  cases fresh' with
  | true =>
    rw [if_pos rfl] at hchain
    exact (List.isChain_cons_cons.1 hchain.right_of_append).1 ⟨hblank, hblank'⟩
  | false =>
    rw [if_neg Bool.false_ne_true] at hchain
    rcases hlast rfl with ⟨htrue, -⟩ | ⟨init, last, hinit, hlastblank⟩
    · cases htrue
    · rw [hinit, List.append_assoc] at hchain
      exact (List.isChain_cons_cons.1 hchain.right_of_append).1 ⟨hlastblank, hblank'⟩

/-- **No two adjacent blank lines** are kept exactly when none have only noise between them. -/
theorem isChain_clean_iff : (clean p).lines.IsChain NotBothBlank ↔
    ¬NoiseBetweenBlanks (repeatedNoise p) (normalizedLines p) := by
  rw [clean_lines]
  exact ⟨fun h hbetween => not_isChain_keep hbetween h, isChain_keep⟩

/-! ## Cleaning twice -/

/-- What the normalization of a line leaves alone, but for its ends. -/
structure Normal (cs : List Char) : Prop where
  chars : ∀ c ∈ cs, c ≠ '\n' ∧ c ≠ '\r' ∧ c ≠ '\u3000' ∧ c ≠ '\t'
  gaps : cs.IsChain fun c d => ¬(c = ' ' ∧ d = ' ')

theorem unifyBreaks_eq_self (h : ∀ c ∈ cs, c ≠ '\r' ∧ c ≠ '\u3000') : unifyBreaks cs = cs := by
  fun_induction unifyBreaks cs with
  | case1 => rfl
  | case2 cs ih => exact absurd rfl (h '\r' List.mem_cons_self).1
  | case3 c cs _ ih =>
    obtain ⟨hcr, hwide⟩ := h c List.mem_cons_self
    rw [if_neg hcr, if_neg hwide, ih fun d hd => h d (List.mem_cons_of_mem _ hd)]

theorem mem_unifyBreaks {c : Char} (h : c ∈ unifyBreaks cs) : c ≠ '\r' ∧ c ≠ '\u3000' := by
  fun_induction unifyBreaks cs with
  | case1 => cases h
  | case2 cs ih =>
    rcases List.mem_cons.1 h with rfl | h
    · decide
    · exact ih h
  | case3 d cs _ ih =>
    rcases List.mem_cons.1 h with rfl | h
    · split_ifs with hcr hwide
      · decide
      · decide
      · exact ⟨hcr, hwide⟩
    · exact ih h

theorem collapseGaps_eq_self (htab : ∀ c ∈ cs, c ≠ '\t')
    (h : cs.IsChain fun c d => ¬(c = ' ' ∧ d = ' ')) : collapseGaps cs = cs := by
  induction cs with
  | nil => rfl
  | cons c cs ih =>
    have hrest := ih (fun d hd => htab d (List.mem_cons_of_mem _ hd)) h.tail
    unfold collapseGaps
    rw [hrest]
    by_cases hgap : isGap c
    · have hc : c = ' ' := by
        simp only [isGap, Bool.or_eq_true, decide_eq_true_eq] at hgap
        exact hgap.resolve_right (htab c List.mem_cons_self)
      have hnext : (cs.head?.map isGap).getD false = false := by
        cases cs with
        | nil => rfl
        | cons d ds =>
          have hd : d ≠ ' ' := fun hd => (List.isChain_cons_cons.1 h).1 ⟨hc, hd⟩
          have ht := htab d (List.mem_cons_of_mem _ List.mem_cons_self)
          simp [isGap, hd, ht]
      rw [if_pos hgap, hnext, if_neg Bool.false_ne_true, hc]
    · rw [if_neg hgap]

theorem mem_collapseGaps {c : Char} (h : c ∈ collapseGaps cs) : c = ' ' ∨ c ∈ cs ∧ c ≠ '\t' := by
  induction cs with
  | nil => cases h
  | cons d cs ih =>
    have hrest (h : c ∈ collapseGaps cs) : c = ' ' ∨ c ∈ d :: cs ∧ c ≠ '\t' :=
      (ih h).imp_right fun h => ⟨List.mem_cons_of_mem _ h.1, h.2⟩
    unfold collapseGaps at h
    split_ifs at h with hgap hnext
    · exact hrest h
    · rcases List.mem_cons.1 h with rfl | h
      · exact Or.inl rfl
      · exact hrest h
    · rcases List.mem_cons.1 h with rfl | h
      · refine Or.inr ⟨List.mem_cons_self, fun htab => hgap ?_⟩
        rw [htab]
        rfl
      · exact hrest h

theorem head_collapseGaps (h : (cs.head?.map isGap).getD false = false) :
    (collapseGaps cs).head? ≠ some ' ' := by
  cases cs with
  | nil => exact fun h => (by cases h)
  | cons d cs =>
    have hgap : isGap d = false := h
    unfold collapseGaps
    rw [if_neg (by rw [hgap]; exact Bool.false_ne_true)]
    intro hspace
    rw [Option.some.inj hspace] at hgap
    cases hgap

theorem isChain_collapseGaps : (collapseGaps cs).IsChain fun c d => ¬(c = ' ' ∧ d = ' ') := by
  induction cs with
  | nil => exact List.isChain_nil
  | cons c cs ih =>
    unfold collapseGaps
    split_ifs with hgap hnext
    · exact ih
    · refine List.isChain_cons.2 ⟨fun d hd hboth => ?_, ih⟩
      rw [hboth.2] at hd
      exact head_collapseGaps (Bool.not_eq_true _ ▸ hnext) hd
    · refine List.isChain_cons.2 ⟨fun d hd hboth => hgap ?_, ih⟩
      rw [hboth.1]
      rfl

theorem strip_infix : (strip text).toList <:+: text.toList := by
  rw [strip, String.toList_ofList]
  refine List.IsInfix.trans ?_ (List.dropWhile_suffix isSpace).isInfix
  rw [← List.reverse_infix, List.reverse_reverse]
  exact (List.dropWhile_suffix isSpace).isInfix

theorem normal_normalizedText {raw : List Char}
    (h : ∀ c ∈ raw, c ≠ '\n' ∧ c ≠ '\r' ∧ c ≠ '\u3000') : Normal (normalizedText raw).toList := by
  have hinfix : (normalizedText raw).toList <:+: collapseGaps raw := by
    have hstrip : (normalizedText raw).toList <:+: (String.ofList (collapseGaps raw)).toList :=
      strip_infix
    rwa [String.toList_ofList] at hstrip
  refine ⟨fun c hc => ?_, isChain_collapseGaps.infix hinfix⟩
  rcases mem_collapseGaps ( hinfix.subset hc) with rfl | ⟨hmem, htab⟩
  · decide
  · obtain ⟨hlf, hcr, hwide⟩ := h c hmem
    exact ⟨hlf, hcr, hwide, htab⟩

/-- A line that was normalized. -/
def Normalized (line : AssembledLine) : Prop :=
  Normal line.text.toList ∧ strip line.text = line.text

theorem normalized_of_mem (h : line ∈ normalizedLines p) : Normalized line := by
  obtain ⟨item, -, hitem⟩ := List.mem_flatMap.1 h
  obtain ⟨raw, hraw, rfl⟩ := List.mem_map.1 hitem
  refine ⟨normal_normalizedText fun c hc => ?_, strip_strip⟩
  obtain ⟨hmem, hlf⟩ := mem_of_mem_splitOn hraw c hc
  obtain ⟨hcr, hwide⟩ := mem_unifyBreaks hmem
  exact ⟨hlf, hcr, hwide⟩

theorem normalizedItem_of_normalized (h : Normalized line) : normalizedItem line = [line] := by
  obtain ⟨⟨hchars, hgaps⟩, hstrip⟩ := h
  have hbreaks : unifyBreaks line.text.toList = line.text.toList :=
    unifyBreaks_eq_self fun c hc => ⟨(hchars c hc).2.1, (hchars c hc).2.2.1⟩
  have hsingle : line.text.toList.splitOn '\n' = [line.text.toList] :=
    List.splitOn_eq_singleton fun hmem => (hchars _ hmem).1 rfl
  have hcollapse : collapseGaps line.text.toList = line.text.toList :=
    collapseGaps_eq_self (fun c hc => (hchars c hc).2.2.2) hgaps
  have htext : normalizedText line.text.toList = line.text := by
    rw [normalizedText, hcollapse, String.ofList_toList, hstrip]
  rw [normalizedItem, hbreaks, hsingle, List.map_singleton, htext]

theorem normalizedLines_of_normalized (h : ∀ line ∈ p.lines, Normalized line) :
    normalizedLines p = p.lines := by
  have hitems : ∀ line ∈ p.lines, normalizedItem line = [line] := fun line hline =>
    normalizedItem_of_normalized (h line hline)
  rw [normalizedLines, List.flatMap_congr hitems]
  exact List.flatMap_singleton' p.lines

theorem keep_eq_self {fresh : Bool} (hnoise : ∀ l ∈ lines, l.text ≠ "" → isNoise noise l = false)
    (hchain : lines.IsChain NotBothBlank)
    (hfresh : fresh = false → ∀ l ∈ lines.head?, l.text ≠ "") : keep noise fresh lines = lines := by
  induction lines generalizing fresh with
  | nil => rfl
  | cons line lines ih =>
    obtain ⟨hnext, hrest⟩ := List.isChain_cons.1 hchain
    have hnoise' := fun l hl => hnoise l (List.mem_cons_of_mem _ hl)
    unfold keep
    by_cases hblank : line.text = ""
    · have htrue : fresh = true := by
        by_contra hfalse
        exact hfresh (Bool.not_eq_true _ ▸ hfalse) line rfl hblank
      have hkeep : keep noise false lines = lines :=
        ih hnoise' hrest fun _ l hl hempty => hnext l hl ⟨hblank, hempty⟩
      rw [if_pos hblank, if_pos htrue, hkeep]
    · have hkeep : keep noise true lines = lines := ih hnoise' hrest fun h => (by cases h)
      have hkept : ¬isNoise noise line = true := by
        rw [hnoise line List.mem_cons_self hblank]
        exact Bool.false_ne_true
      rw [if_neg hblank, if_neg hkept, hkeep]

/-- What is kept is no noise, in what is kept either. -/
theorem not_isNoise_clean (hline : line ∈ (clean p).lines) (htext : line.text ≠ "") :
    isNoise (detectRepeatedNoise ((clean p).lines.map AssembledLine.text)) line = false := by
  have hkept : isNoise (repeatedNoise p) line = false := by
    have hmem : line ∈ (keep (repeatedNoise p) true (normalizedLines p)).filter
        fun l => l.text ≠ "" := List.mem_filter.2 ⟨clean_lines ▸ hline, by simpa using htext⟩
    rw [filter_keep fun l hl => by simpa using hl] at hmem
    have hnot := (List.mem_filter.1 hmem).2
    rw [Bool.and_eq_true, Bool.not_eq_true'] at hnot
    exact hnot.2
  have hsub : ((clean p).lines.map AssembledLine.text).Sublist
      ((normalizedLines p).map AssembledLine.text) := by
    rw [clean_lines]
    exact keep_sublist.map _
  simp only [isNoise, repeatedNoise, Bool.or_eq_false_iff, decide_eq_false_iff_not,
    mem_detectRepeatedNoise] at hkept ⊢
  refine ⟨?_, hkept.2⟩
  rintro ⟨hne, hshort, hcount⟩
  exact hkept.1 ⟨hne, hshort, Nat.le_trans hcount (hsub.count_le _)⟩

/-- **Cleaning twice** is cleaning once, and leaves no two adjacent blank lines, exactly when no two
blank lines of the document have only removed lines between them. -/
theorem clean_stable_iff (parsedText : ParsedTextResult) :
    ((clean { parsedText with lines := (clean parsedText).lines }).lines =
        (clean parsedText).lines ∧
      (clean parsedText).lines.IsChain NotBothBlank) ↔
    ¬NoiseBetweenBlanks (repeatedNoise parsedText) (normalizedLines parsedText) := by
  constructor
  · rintro ⟨-, hchain⟩
    exact isChain_clean_iff.1 hchain
  · intro h
    have hchain := isChain_clean_iff.2 h
    refine ⟨?_, hchain⟩
    have hnormal : ∀ line ∈ (clean parsedText).lines, Normalized line := by
      intro line hline
      rw [clean_lines] at hline
      exact normalized_of_mem (keep_sublist.subset hline)
    have hlines : normalizedLines { parsedText with lines := (clean parsedText).lines } =
        (clean parsedText).lines := normalizedLines_of_normalized hnormal
    rw [clean_lines, repeatedNoise, hlines]
    exact keep_eq_self (fun l hl htext => not_isNoise_clean hl htext) hchain fun h => (by cases h)

/-- A page number between two blank lines. -/
def pageBreak : ParsedTextResult where
  lines := [article "正文", article "", article "第 1 页", article "", article "正文续"]

theorem page_break_leaves_blanks : ¬∀ parsedText : ParsedTextResult,
    (clean { parsedText with lines := (clean parsedText).lines }).lines =
        (clean parsedText).lines ∧
      (clean parsedText).lines.IsChain NotBothBlank := by
  intro h
  have htwice := congrArg List.length (h pageBreak).1
  revert htwice
  decide +kernel

end GoAgent.Ingestion
