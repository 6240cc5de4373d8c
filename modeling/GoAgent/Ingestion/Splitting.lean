import GoAgent.Ingestion.Cleaning

/-!
# What the splitter keeps

The lines of a section are those of its text. `Splitting texts s` says that the loop of `split`, once
it has read the lines `texts`, holds each of them once and in order: in a section that is complete or
in the one being read. The lines before the first heading are the first section, or were dropped.

* `strip_joined` — white space around joined lines is that of blank lines at the ends.
* `Splitting.body`, `Splitting.heading` — what one line changes.
* `split_keeps` — the sections of a cleaned document hold its lines, in order. A document without
  headings is one section, with the blank lines between the others.
-/

namespace GoAgent.Ingestion

open GoAgent.Foundation

variable {p : ParsedTextResult} {s : SplitState} {line : AssembledLine}
  {text : String} {texts : List String} {ls : List (List Char)} {item : SectionSplitItem}

/-! ## Joined lines -/

/-- `text.split("\n")` -/
def textLines (text : String) : List String := (text.toList.splitOn '\n').map String.ofList

/-- A line as the cleaner leaves it. -/
structure Tidy (text : String) : Prop where
  single : '\n' ∉ text.toList
  stripped : strip text = text

/-- The lines without the blank ones at both ends. -/
def trimmed (texts : List String) : List String :=
  (texts.dropWhile (· = "")).rdropWhile (· = "")

theorem dropWhile_intercalate (h : ∀ l ∈ ls, l.dropWhile isSpace = l) :
    (['\n'].intercalate ls).dropWhile isSpace = ['\n'].intercalate (ls.dropWhile (· = [])) := by
  induction ls with
  | nil => rfl
  | cons l ls ih =>
    have hrest := ih fun l' hl' => h l' (List.mem_cons_of_mem _ hl')
    cases l with
    | nil =>
      rw [List.dropWhile_cons_of_pos (by simp), ← hrest]
      cases ls with
      | nil => rfl
      | cons l' ls => exact List.dropWhile_cons_of_pos rfl
    | cons c cs =>
      have hc : isSpace c = false := by
        have hself := h _ List.mem_cons_self
        by_contra hspace
        rw [List.dropWhile_cons_of_pos (by simpa using hspace)] at hself
        have hlen := (List.dropWhile_sublist isSpace (l := cs)).length_le
        rw [hself, List.length_cons] at hlen
        omega
      rw [List.dropWhile_cons_of_neg (by simp)]
      cases ls with
      | nil => simpa using h _ List.mem_cons_self
      | cons l' ls => exact List.dropWhile_cons_of_neg (by simp [hc])

theorem intercalate_concat {l : List Char} (hne : ls ≠ []) :
    ['\n'].intercalate (ls ++ [l]) = ['\n'].intercalate ls ++ '\n' :: l := by
  induction ls with
  | nil => exact absurd rfl hne
  | cons l' ls ih =>
    cases ls with
    | nil => simp
    | cons l'' ls =>
      have hrest := ih (List.cons_ne_nil l'' ls)
      rw [List.cons_append] at hrest
      simp [hrest]

theorem reverse_intercalate : (['\n'].intercalate ls).reverse =
    ['\n'].intercalate (ls.map List.reverse).reverse := by
  induction ls with
  | nil => rfl
  | cons l ls ih =>
    cases ls with
    | nil => simp
    | cons l' ls =>
      rw [List.map_cons, List.reverse_cons, intercalate_concat (by simp), ← ih]
      simp

theorem toList_eq_nil : text.toList = [] ↔ text = "" := by
  rw [← String.toList_inj]
  rfl

/-- White space at the ends of joined lines is that of blank lines. -/
theorem strip_joined (h : ∀ t ∈ texts, Tidy t) :
    strip ("\n".intercalate texts) = "\n".intercalate (trimmed texts) := by
  have hfront : ∀ l ∈ texts.map String.toList, l.dropWhile isSpace = l := by
    intro l hl
    obtain ⟨t, ht, rfl⟩ := List.mem_map.1 hl
    rw [← (h t ht).stripped]
    exact dropWhile_strip
  have hback : ∀ l ∈ ((texts.map String.toList).dropWhile (· = [])).reverse.map List.reverse,
      l.dropWhile isSpace = l := by
    intro l hl
    obtain ⟨l', hl', rfl⟩ := List.mem_map.1 hl
    have hmem := (List.dropWhile_sublist _).subset (List.mem_reverse.1 hl')
    obtain ⟨t, ht, rfl⟩ := List.mem_map.1 hmem
    rw [← (h t ht).stripped]
    exact dropWhile_reverse_strip
  have hblank (l : List String) : (l.map String.toList).dropWhile (· = []) =
      (l.dropWhile (· = "")).map String.toList := by
    rw [List.dropWhile_map]
    congr 2
    funext t
    exact decide_eq_decide.2 toList_eq_nil
  have hreverse (l : List (List Char)) : (l.map List.reverse).dropWhile (· = []) =
      (l.dropWhile (· = [])).map List.reverse := by
    rw [List.dropWhile_map]
    congr 2
    funext t
    exact decide_eq_decide.2 List.reverse_eq_nil_iff
  rw [strip, ← String.toList_inj, String.toList_ofList, String.toList_intercalate,
    String.toList_intercalate]
  have hsep : "\n".toList = ['\n'] := rfl
  rw [hsep, dropWhile_intercalate hfront, reverse_intercalate, ← List.map_reverse,
    dropWhile_intercalate hback, hreverse, reverse_intercalate, List.map_map, hblank,
    ← List.map_reverse (l := List.dropWhile _ texts), hblank]
  simp [trimmed, List.rdropWhile]

theorem textLines_joined (h : ∀ t ∈ texts, Tidy t) (hne : texts ≠ []) :
    textLines ("\n".intercalate texts) = texts := by
  have hsingle : ∀ l ∈ texts.map String.toList, '\n' ∉ l := by
    intro l hl
    obtain ⟨t, ht, rfl⟩ := List.mem_map.1 hl
    exact (h t ht).single
  have hsep : "\n".toList = ['\n'] := rfl
  rw [textLines, String.toList_intercalate, hsep,
    List.splitOn_intercalate _ hsingle (by simpa using hne), List.map_map]
  simp

/-! ## Sections -/

/-- Of lines with text: the section has the number, the title and the level of the heading it begins
with, if any, and no other heading. -/
def Headed (sectionNo sectionTitle : Option String) (level : Nat) (texts : List String) : Prop :=
  (sectionNo = none ∧ ∀ t ∈ texts, matchHeading t = none) ∨
    ∃ heading first rest, texts = first :: rest ∧ matchHeading first = some heading ∧
      sectionNo = some heading.sectionNo ∧ sectionTitle = some heading.sectionTitle ∧
      level = heading.sectionLevel.number ∧ ∀ t ∈ rest, matchHeading t = none

def SectionSplitItem.lines (item : SectionSplitItem) : List String := textLines item.sectionText

def SectionSplitItem.Starts (item : SectionSplitItem) : Prop :=
  Headed item.sectionNo item.sectionTitle item.sectionLevel item.lines

theorem trimmed_eq_self (h : ∀ t ∈ texts, isBlank t = false) : trimmed texts = texts := by
  have hne : ∀ t ∈ texts, t ≠ "" := by
    rintro t ht rfl
    have := h "" ht
    revert this
    decide
  have hfront {l : List String} (hl : ∀ t ∈ l, t ≠ "") : l.dropWhile (· = "") = l := by
    cases l with
    | nil => rfl
    | cons t l => exact List.dropWhile_cons_of_neg (by simpa using hl t List.mem_cons_self)
  rw [trimmed, hfront hne, List.rdropWhile, hfront fun t ht => hne t (List.mem_reverse.1 ht),
    List.reverse_reverse]

theorem flushSection_eq (hne : s.currentLines ≠ [])
    (h : ∀ l ∈ s.currentLines, Tidy l.text ∧ isBlank l.text = false) :
    ∃ item, flushSection s = s.sections ++ [item] ∧
      item.lines = s.currentLines.map AssembledLine.text ∧ item.sectionNo = s.currentNo ∧
      item.sectionTitle = s.currentTitle ∧ item.sectionLevel = s.currentLevel ∧
      item.sectionOrder = s.sections.length := by
  have htidy : ∀ t ∈ s.currentLines.map AssembledLine.text, Tidy t := by
    intro t ht
    obtain ⟨l, hl, rfl⟩ := List.mem_map.1 ht
    exact (h l hl).1
  have hshown : ∀ t ∈ s.currentLines.map AssembledLine.text, isBlank t = false := by
    intro t ht
    obtain ⟨l, hl, rfl⟩ := List.mem_map.1 ht
    exact (h l hl).2
  have hnil : s.currentLines.map AssembledLine.text ≠ [] := by simpa using hne
  have htext : strip ("\n".intercalate (s.currentLines.map AssembledLine.text)) =
      "\n".intercalate (s.currentLines.map AssembledLine.text) := by
    rw [strip_joined htidy, trimmed_eq_self hshown]
  have hblank : "\n".intercalate (s.currentLines.map AssembledLine.text) ≠ "" := by
    intro hempty
    obtain ⟨t, ht⟩ := List.exists_mem_of_ne_nil _ hnil
    have hfalse : isBlank ("\n".intercalate (s.currentLines.map AssembledLine.text)) = false :=
      isBlank_intercalate ht (hshown t ht)
    rw [hempty] at hfalse
    cases hfalse
  unfold flushSection
  rw [if_neg hne, htext]
  dsimp only
  rw [if_neg hblank]
  exact ⟨_, rfl, textLines_joined htidy hnil, rfl, rfl, rfl, rfl⟩

/-! ## The loop -/

/-- A line with text, as the cleaner leaves it. -/
def Shown (line : AssembledLine) : Prop := Tidy line.text ∧ isBlank line.text = false

/-- The lines before the first heading are the first section, or dropped. -/
def Prefaced (preface : List String) (first : List SectionSplitItem) : Prop :=
  first = [] ∨ ∃ item, first = [item] ∧ item.lines = preface ∧ item.sectionNo = none

/-- What holds between two lines, once the lines `texts` are read. -/
structure Splitting (texts : List String) (s : SplitState) : Prop where
  items : ∀ item ∈ s.sections, item.Starts
  current : Headed s.currentNo s.currentTitle s.currentLevel (s.currentLines.map AssembledLine.text)
  order : s.sections.map SectionSplitItem.sectionOrder = List.range s.sections.length
  shown : ∀ l ∈ s.currentLines, Shown l
  unheaded : s.sawHeading = false → s.sections = [] ∧ s.currentNo = none ∧
    s.currentLines.map AssembledLine.text = texts
  headed : s.sawHeading = true → s.currentLines ≠ [] ∧ s.currentNo.isSome ∧
    ∃ preface heading rest first others, texts = preface ++ heading :: rest ∧
      (∀ t ∈ preface, matchHeading t = none) ∧ (matchHeading heading).isSome ∧
      s.sections = first ++ others ∧ Prefaced preface first ∧
      (∀ item ∈ others, item.sectionNo.isSome) ∧
      others.flatMap SectionSplitItem.lines ++ s.currentLines.map AssembledLine.text =
        heading :: rest

theorem Headed.none_of {sectionTitle : Option String} {level : Nat}
    (h : Headed none sectionTitle level texts) : ∀ t ∈ texts, matchHeading t = none := by
  rcases h with ⟨-, h⟩ | ⟨_, _, _, _, _, hno, _⟩
  · exact h
  · cases hno

theorem Headed.concat {sectionNo sectionTitle : Option String} {level : Nat}
    (h : Headed sectionNo sectionTitle level texts) (ht : matchHeading text = none) :
    Headed sectionNo sectionTitle level (texts ++ [text]) := by
  have hrest {l : List String} (hl : ∀ t ∈ l, matchHeading t = none) :
      ∀ t ∈ l ++ [text], matchHeading t = none := by
    intro t hmem
    rcases List.mem_append.1 hmem with hmem | hmem
    · exact hl t hmem
    · rw [List.mem_singleton.1 hmem]
      exact ht
  rcases h with ⟨hno, hall⟩ | ⟨heading, first, rest, rfl, hfirst, hno, htitle, hlevel, hall⟩
  · exact Or.inl ⟨hno, hrest hall⟩
  · exact Or.inr ⟨heading, first, rest ++ [text], rfl, hfirst, hno, htitle, hlevel, hrest hall⟩

theorem Splitting.start : Splitting [] {} where
  items item hitem := by cases hitem
  current := Or.inl ⟨rfl, fun t ht => (by cases ht)⟩
  order := rfl
  shown l hl := by cases hl
  unheaded _ := ⟨rfl, rfl, rfl⟩
  headed h := by cases h

/-- The lines of a section are read on. -/
theorem Splitting.body (h : Splitting texts s) (hline : Shown line)
    (hnone : matchHeading line.text = none) :
    Splitting (texts ++ [line.text]) { s with currentLines := s.currentLines ++ [line] } := by
  have hmap : (s.currentLines ++ [line]).map AssembledLine.text =
      s.currentLines.map AssembledLine.text ++ [line.text] := List.map_append
  refine ⟨h.items, ?_, h.order, ?_, ?_, ?_⟩
  · rw [hmap]
    exact h.current.concat hnone
  · intro l hl
    rcases List.mem_append.1 hl with hl | hl
    · exact h.shown l hl
    · rw [List.mem_singleton.1 hl]
      exact hline
  · intro hsaw
    obtain ⟨hsections, hno, hread⟩ := h.unheaded hsaw
    refine ⟨hsections, hno, ?_⟩
    rw [hmap, hread]
  · intro hsaw
    obtain ⟨-, hno, preface, heading, rest, first, others, rfl, hpreface, hheading, hsections,
      hfirst, hothers, hread⟩ := h.headed hsaw
    refine ⟨by simp, hno, preface, heading, rest ++ [line.text], first, others, by simp, hpreface,
      hheading, hsections, hfirst, hothers, ?_⟩
    rw [hmap, ← List.append_assoc, hread]
    rfl

/-- A section is completed. -/
theorem Splitting.flush (h : Splitting texts s) (hne : s.currentLines ≠ []) :
    ∃ item, flushSection s = s.sections ++ [item] ∧ item.sectionNo = s.currentNo ∧
      item.lines = s.currentLines.map AssembledLine.text ∧
      (∀ item ∈ flushSection s, item.Starts) ∧
      (flushSection s).map SectionSplitItem.sectionOrder = List.range (flushSection s).length := by
  obtain ⟨item, hflush, hlines, hno, htitle, hlevel, horder⟩ := flushSection_eq hne h.shown
  refine ⟨item, hflush, hno, hlines, ?_, ?_⟩
  · rw [hflush]
    intro item' hitem
    rcases List.mem_append.1 hitem with hitem | hitem
    · exact h.items item' hitem
    · rw [List.mem_singleton.1 hitem, SectionSplitItem.Starts, hno, htitle, hlevel, hlines]
      exact h.current
  · rw [hflush, List.map_append, h.order, List.length_append, List.length_singleton,
      List.range_succ, List.map_singleton, horder]

/-- At the first heading the lines before it are the first section, or dropped. -/
theorem Splitting.preface (h : Splitting texts s) (hsaw : s.sawHeading = false) :
    Prefaced texts (flushSection (dropPreface s)) ∧
      (∀ item ∈ flushSection (dropPreface s), item.Starts) ∧
      (flushSection (dropPreface s)).map SectionSplitItem.sectionOrder =
        List.range (flushSection (dropPreface s)).length := by
  obtain ⟨hsections, hno, hlines⟩ := h.unheaded hsaw
  have hnone : flushSection (dropPreface s) = [] → Prefaced texts (flushSection (dropPreface s)) ∧
      (∀ item ∈ flushSection (dropPreface s), item.Starts) ∧
      (flushSection (dropPreface s)).map SectionSplitItem.sectionOrder =
        List.range (flushSection (dropPreface s)).length := by
    intro hnil
    rw [hnil]
    exact ⟨Or.inl rfl, fun item hitem => (by cases hitem), rfl⟩
  rcases dropPreface_eq (s := s) with heq | ⟨heq, -⟩
  · by_cases hnil : s.currentLines = []
    · refine hnone ?_
      rw [heq, flushSection, if_pos hnil, hsections]
    · obtain ⟨item, hflush, hitem, hitemlines, hstarts, horder⟩ := h.flush hnil
      rw [heq]
      refine ⟨Or.inr ⟨item, ?_, hitemlines.trans hlines, hitem.trans hno⟩, hstarts, horder⟩
      rw [hflush, hsections]
      rfl
  · refine hnone ?_
    rw [heq, flushSection, if_pos rfl, hsections]

/-- A section begins. -/
theorem Splitting.heading {heading : SectionHeading} (h : Splitting texts s) (hline : Shown line)
    (hsome : matchHeading line.text = some heading) :
    Splitting (texts ++ [line.text]) (splitLine s line) := by
  have hstep : splitLine s line =
      { sections := flushSection (dropPreface s)
        currentLines := [line]
        currentNo := some heading.sectionNo
        currentTitle := some heading.sectionTitle
        currentLevel := heading.sectionLevel.number
        currentPath := rebuildPath s.currentPath heading
        sawHeading := true } := by
    unfold splitLine
    rw [hsome]
  have hcurrent : Headed (some heading.sectionNo) (some heading.sectionTitle)
      heading.sectionLevel.number [line.text] :=
    Or.inr ⟨heading, line.text, [], rfl, hsome, rfl, rfl, rfl, fun t ht => (by cases ht)⟩
  have hshown : ∀ l ∈ [line], Shown l := by
    intro l hl
    rw [List.mem_singleton.1 hl]
    exact hline
  rw [hstep]
  by_cases hsaw : s.sawHeading = true
  · have hdrop : dropPreface s = s := by
      unfold dropPreface
      rw [hsaw]
      rfl
    obtain ⟨hne, hno, preface, first, rest, firsts, others, rfl, hpreface, hfirst, hsections,
      hprefaced, hothers, hread⟩ := h.headed hsaw
    obtain ⟨item, hflush, hitem, hitemlines, hstarts, horder⟩ := h.flush hne
    rw [hdrop]
    refine ⟨hstarts, hcurrent, horder, hshown, fun hfalse => (by cases hfalse), fun _ => ?_⟩
    refine ⟨List.cons_ne_nil _ _, rfl, preface, first, rest ++ [line.text], firsts,
      others ++ [item], by simp, hpreface, hfirst, ?_, hprefaced, ?_, ?_⟩
    · rw [hflush, hsections, List.append_assoc]
    · intro item' hmem
      rcases List.mem_append.1 hmem with hmem | hmem
      · exact hothers item' hmem
      · rw [List.mem_singleton.1 hmem, hitem]
        exact hno
    · rw [List.flatMap_append, List.flatMap_singleton, hitemlines, hread]
      rfl
  · have hfalse : s.sawHeading = false := Bool.not_eq_true _ ▸ hsaw
    obtain ⟨hprefaced, hstarts, horder⟩ := h.preface hfalse
    obtain ⟨-, hno, hlines⟩ := h.unheaded hfalse
    have hnone := h.current
    rw [hno, hlines] at hnone
    have hheading : (matchHeading line.text).isSome = true := by
      rw [hsome]
      rfl
    refine ⟨hstarts, hcurrent, horder, hshown, fun hfalse => (by cases hfalse), fun _ => ?_⟩
    exact ⟨List.cons_ne_nil _ _, rfl, texts, line.text, [], _, [], rfl, hnone.none_of, hheading,
      (List.append_nil _).symm, hprefaced, fun item hitem => (by cases hitem), rfl⟩

theorem Splitting.foldl {lines : List AssembledLine} (h : Splitting texts s)
    (hlines : ∀ l ∈ lines, Shown l) :
    Splitting (texts ++ lines.map AssembledLine.text) (lines.foldl splitLine s) := by
  induction lines generalizing texts s with
  | nil => simpa using h
  | cons line lines ih =>
    have hline := hlines line List.mem_cons_self
    have hstep : Splitting (texts ++ [line.text]) (splitLine s line) := by
      cases hheading : matchHeading line.text with
      | none =>
        have hbody : splitLine s line = { s with currentLines := s.currentLines ++ [line] } := by
          unfold splitLine
          rw [hheading]
        rw [hbody]
        exact h.body hline hheading
      | some heading => exact h.heading hline hheading
    have hrest := ih hstep fun l hl => hlines l (List.mem_cons_of_mem _ hl)
    rw [List.append_assoc] at hrest
    exact hrest

/-! ## Cleaned documents -/

theorem tidy_of_normalized (h : Normalized line) : Tidy line.text :=
  ⟨fun hmem => (h.1.chars _ hmem).1 rfl, h.2⟩

theorem tidy_clean : ∀ t ∈ (clean p).lines.map AssembledLine.text, Tidy t := by
  intro t ht
  obtain ⟨line, hline, rfl⟩ := List.mem_map.1 ht
  rw [clean_lines] at hline
  exact tidy_of_normalized (normalized_of_mem (keep_sublist.subset hline))

/-- The lines of a cleaned document that are not blank. -/
def contentLines (cleanedText : CleanedTextResult) : List String :=
  (cleanedText.lines.map AssembledLine.text).filter fun t => !isBlank t

theorem linesOf_clean : linesOf (clean p) = (clean p).lines.filter fun l => !isBlank l.text := by
  unfold linesOf buildLines
  split_ifs with hne
  · rfl
  · have hnil : (clean p).lines = [] := not_not.1 hne
    have htext : (clean p).cleanText = "" := by
      have hjoined : (clean p).cleanText =
          strip ("\n".intercalate ((clean p).lines.map AssembledLine.text)) := rfl
      rw [hjoined, hnil]
      rfl
    rw [htext, hnil]
    rfl

theorem texts_linesOf : (linesOf (clean p)).map AssembledLine.text = contentLines (clean p) := by
  rw [linesOf_clean, contentLines, List.filter_map]
  rfl

theorem shown_linesOf : ∀ l ∈ linesOf (clean p), Shown l := by
  intro l hl
  rw [linesOf_clean] at hl
  obtain ⟨hmem, hblank⟩ := List.mem_filter.1 hl
  exact ⟨tidy_clean _ (List.mem_map_of_mem hmem), by simpa using hblank⟩

/-- What the sections of a cleaned document hold. -/
structure Keeps (cleanedText : CleanedTextResult) (sections : List SectionSplitItem) : Prop where
  starts : ∀ item ∈ sections, item.Starts
  order : sections.map SectionSplitItem.sectionOrder = List.range sections.length
  whole : (∀ t ∈ contentLines cleanedText, matchHeading t = none) → sections.length ≤ 1 ∧
    sections.flatMap SectionSplitItem.lines = trimmed (cleanedText.lines.map AssembledLine.text)
  headed : (∃ t ∈ contentLines cleanedText, (matchHeading t).isSome) →
    ∃ preface heading rest first others, contentLines cleanedText = preface ++ heading :: rest ∧
      (∀ t ∈ preface, matchHeading t = none) ∧ (matchHeading heading).isSome ∧
      sections = first ++ others ∧ Prefaced preface first ∧
      (∀ item ∈ others, item.sectionNo.isSome) ∧
      others.flatMap SectionSplitItem.lines = heading :: rest

theorem trimmed_of_blank (h : ∀ t ∈ texts, t = "") : trimmed texts = [] := by
  have hnil : texts.dropWhile (· = "") = [] :=
    List.dropWhile_eq_nil_iff.2 fun t ht => decide_eq_true (h t ht)
  rw [trimmed, hnil]
  rfl

theorem eq_empty_of_tidy (h : Tidy text) (hblank : isBlank text = true) : text = "" := by
  have hall : ∀ c ∈ text.toList, isSpace c = true := List.all_eq_true.1 hblank
  have hnil : text.toList.dropWhile isSpace = [] := List.dropWhile_eq_nil_iff.2 hall
  rw [← h.stripped, strip, hnil]
  rfl

/-- The blank lines at both ends are the only ones that are left out. -/
theorem filter_trimmed : (trimmed texts).filter (fun t => !isBlank t) =
    texts.filter fun t => !isBlank t := by
  have hdrop (l : List String) : (l.dropWhile (· = "")).filter (fun t => !isBlank t) =
      l.filter fun t => !isBlank t := by
    induction l with
    | nil => rfl
    | cons t l ih =>
      by_cases ht : t = ""
      · rw [List.dropWhile_cons_of_pos (by simpa using ht), ih, ht]
        rfl
      · rw [List.dropWhile_cons_of_neg (by simpa using ht)]
  rw [trimmed, List.rdropWhile, List.filter_reverse, hdrop, ← List.filter_reverse,
    List.reverse_reverse, hdrop]

/-- The one section of a document without headings. -/
theorem fullText_lines (lines : List AssembledLine) (hne : contentLines (clean p) ≠ []) :
    (fullText (clean p) lines).lines = trimmed ((clean p).lines.map AssembledLine.text) := by
  have hsub : (trimmed ((clean p).lines.map AssembledLine.text)).Sublist
      ((clean p).lines.map AssembledLine.text) :=
    (List.rdropWhile_prefix _ _).sublist.trans (List.dropWhile_sublist _)
  have htrimmed : trimmed ((clean p).lines.map AssembledLine.text) ≠ [] := by
    intro hnil
    rw [contentLines, ← filter_trimmed, hnil] at hne
    exact hne rfl
  have htext : (clean p).cleanText =
      strip ("\n".intercalate ((clean p).lines.map AssembledLine.text)) := rfl
  rw [SectionSplitItem.lines, fullText, htext, strip_joined tidy_clean]
  exact textLines_joined (fun t ht => tidy_clean t (hsub.subset ht)) htrimmed

/-- **The splitter keeps what it is given.** -/
theorem split_keeps (parsedText : ParsedTextResult) :
    Keeps (clean parsedText) (split (clean parsedText)).sections := by
  have hread : Splitting (contentLines (clean parsedText))
      ((linesOf (clean parsedText)).foldl splitLine {}) := by
    have hfold := Splitting.start.foldl (shown_linesOf (p := parsedText))
    rwa [texts_linesOf] at hfold
  have hblank : contentLines (clean parsedText) = [] →
      trimmed ((clean parsedText).lines.map AssembledLine.text) = [] := by
    intro hnil
    refine trimmed_of_blank fun t ht => ?_
    by_contra hne
    have hshown : isBlank t = false := by
      by_contra hspace
      exact hne (eq_empty_of_tidy (tidy_clean t ht) (by simpa using hspace))
    have hmem : t ∈ contentLines (clean parsedText) :=
      List.mem_filter.2 ⟨ht, by rw [hshown]; rfl⟩
    rw [hnil] at hmem
    cases hmem
  have hlines : linesOf (clean parsedText) = [] ↔ contentLines (clean parsedText) = [] := by
    rw [← texts_linesOf, List.map_eq_nil_iff]
  unfold split
  dsimp only
  split_ifs with hnil hsaw
  · have hcontent := hlines.1 hnil
    refine ⟨fun item hitem => (by cases hitem), rfl, fun _ => ?_, ?_⟩
    · exact ⟨Nat.zero_le _, (hblank hcontent).symm⟩
    · rintro ⟨t, ht, -⟩
      rw [hcontent] at ht
      cases ht
  · obtain ⟨hne, hno, preface, heading, rest, first, others, hcontent, hpreface, hheading,
      hsections, hprefaced, hothers, hrest⟩ := hread.headed hsaw
    obtain ⟨item, hflush, hitem, hitemlines, hstarts, horder⟩ := hread.flush hne
    refine ⟨hstarts, horder, fun hnone => ?_, fun _ => ?_⟩
    · rw [hcontent] at hnone
      rw [hnone heading (List.mem_append_right _ List.mem_cons_self)] at hheading
      cases hheading
    · refine ⟨preface, heading, rest, first, others ++ [item], hcontent, hpreface, hheading, ?_,
        hprefaced, ?_, ?_⟩
      · rw [hflush, hsections, List.append_assoc]
      · intro item' hmem
        rcases List.mem_append.1 hmem with hmem | hmem
        · exact hothers item' hmem
        · rw [List.mem_singleton.1 hmem, hitem]
          exact hno
      · rw [List.flatMap_append, List.flatMap_singleton, hitemlines, hrest]
  · obtain ⟨-, hno, htexts⟩ := hread.unheaded (Bool.not_eq_true _ ▸ hsaw)
    have hnone := hread.current
    rw [hno, htexts] at hnone
    have hnone := hnone.none_of
    have hcontent : contentLines (clean parsedText) ≠ [] := fun h => hnil (hlines.2 h)
    have hfull := fullText_lines (linesOf (clean parsedText)) hcontent
    refine ⟨?_, rfl, fun _ => ⟨Nat.le_refl _, ?_⟩, ?_⟩
    · intro item hitem
      rw [List.mem_singleton.1 hitem, SectionSplitItem.Starts, hfull]
      refine Or.inl ⟨rfl, fun t ht => ?_⟩
      cases hshown : isBlank t with
      | true =>
        have hmem := (List.dropWhile_sublist _).subset ((List.rdropWhile_prefix _ _).subset ht)
        rw [eq_empty_of_tidy (tidy_clean t hmem) hshown]
        decide
      | false =>
        have hmem : t ∈ (trimmed ((clean parsedText).lines.map AssembledLine.text)).filter
            fun t => !isBlank t := List.mem_filter.2 ⟨ht, by rw [hshown]; rfl⟩
        rw [filter_trimmed] at hmem
        exact hnone t hmem
    · rw [List.flatMap_singleton, hfull]
    · rintro ⟨t, ht, hsome⟩
      rw [hnone t ht] at hsome
      cases hsome

/-- Two lines with a blank one between them, and no heading. -/
def plainLetter : ParsedTextResult where
  lines := [article "通知", article "", article "请按期提交。"]

theorem blank_line_kept : ¬∀ parsedText : ParsedTextResult, ∃ preface rest,
    contentLines (clean parsedText) = preface ++ rest ∧ (∀ t ∈ preface, matchHeading t = none) ∧
      (∀ t ∈ rest.head?, (matchHeading t).isSome) ∧
      ((split (clean parsedText)).sections.flatMap SectionSplitItem.lines = preface ++ rest ∨
        (split (clean parsedText)).sections.flatMap SectionSplitItem.lines = rest) := by
  intro h
  obtain ⟨preface, rest, hcontent, -, -, hkept⟩ := h plainLetter
  have hthree :
      ((split (clean plainLetter)).sections.flatMap SectionSplitItem.lines).length = 3 := by
    decide +kernel
  have htwo : (preface ++ rest).length = 2 := by
    rw [← hcontent]
    decide +kernel
  rw [List.length_append] at htwo
  rcases hkept with hkept | hkept
  · rw [hkept, List.length_append] at hthree
    omega
  · rw [hkept] at hthree
    omega

end GoAgent.Ingestion
