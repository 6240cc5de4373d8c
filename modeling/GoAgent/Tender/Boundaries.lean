import GoAgent.Foundation.Intervals
import GoAgent.Tender.Merge
import Mathlib.Data.List.Sort
import Mathlib.Data.Prod.Lex
import Mathlib.Data.String.Basic

/-!
# The boundaries of the volumes

`_validate_explicit_boundaries` checks the ranges of blocks that an analysis names before the
renderer copies from them. It sorts the ranges of the outputs and compares neighbours: none may
overlap the next or leave more than `max_gap_blocks` blocks before it, and the last one must end
near the end of the format region. Nothing bounds the blocks before the first range, which is where
a preface may stand.

* `outputRange_ok` — what is checked of one output.
* `volumes_cover` — what an accepted analysis of more than one volume covers.
-/

namespace GoAgent.Tender

open GoAgent.Foundation

/-! ## The check -/

structure TenderDocumentBlock where
  blockId : String
  deriving DecidableEq

structure TenderDocument where
  blocks : List TenderDocumentBlock

/-- `position_by_id.get(block_id)`: of blocks with one id the last one counts. -/
def TenderDocument.positionById (document : TenderDocument) (blockId : String) : Option ℕ :=
  (document.blocks.map (·.blockId)).zipIdx.reverse.lookup blockId

def analysisFailure {α : Type} (message : String) : Except TenderError α :=
  .error (.analysis message)

/-- A start, an end and the name of the output, as the tuples are sorted. -/
abbrev OutputRange := ℕ ×ₗ ℕ ×ₗ String

def OutputRange.start (range : OutputRange) : ℕ := (ofLex range).1

def OutputRange.stop (range : OutputRange) : ℕ := (ofLex (ofLex range).2).1

def OutputRange.name (range : OutputRange) : String := (ofLex (ofLex range).2).2

/-- What the loop over the outputs does with one of them. -/
def outputRange (document : TenderDocument) (formatStartPosition formatEndPosition : ℕ)
    (names slugs : List String) (output : TenderOutputPlan) : Except TenderError OutputRange :=
  match output.sourceStartBlockId, output.sourceEndBlockId with
  | some startId, some endId =>
    match document.positionById startId.1, document.positionById endId.1 with
    | some startPosition, some endPosition => do
      require (startPosition ≤ endPosition)
        (.analysis ("输出 " ++ output.name.1 ++ " 的分册边界顺序错误。"))
      require (formatStartPosition ≤ startPosition ∧ endPosition ≤ formatEndPosition)
        (.analysis ("输出 " ++ output.name.1 ++ " 超出格式区域边界。"))
      require (output.name.1 ∉ names ∧ output.slug.1 ∉ slugs)
        (.analysis "招标分析包含重复的分册输出。")
      require (∀ position ∈ output.evidenceRefs.filterMap document.positionById,
          startPosition ≤ position ∧ position ≤ endPosition)
        (.analysis ("输出 " ++ output.name.1 ++ " 的证据超出自身分册边界。"))
      pure (toLex (startPosition, toLex (endPosition, output.name.1)))
    | _, _ => analysisFailure ("输出 " ++ output.name.1 ++ " 引用了不存在的分册边界。")
  | _, _ => analysisFailure ("输出 " ++ output.name.1 ++ " 缺少精确分册边界。")

/-- The loop over the outputs, with the names and the slugs seen so far. -/
def outputRanges (document : TenderDocument) (formatStartPosition formatEndPosition : ℕ) :
    List String → List String → List TenderOutputPlan → Except TenderError (List OutputRange)
  | _, _, [] => pure []
  | names, slugs, output :: outputs => do
    let range ← outputRange document formatStartPosition formatEndPosition names slugs output
    let ranges ← outputRanges document formatStartPosition formatEndPosition
      (output.name.1 :: names) (output.slug.1 :: slugs) outputs
    pure (range :: ranges)

def checkSingleVolume (formatStartPosition formatEndPosition : ℕ)
    (requireCompleteSingleRange : Bool) : List OutputRange → Except TenderError Unit
  | [range] =>
    require (¬(requireCompleteSingleRange ∧
        (range.start ≠ formatStartPosition ∨ range.stop ≠ formatEndPosition)))
      (.analysis ("单卷输出 " ++ range.name ++ " 未覆盖完整格式区域。"))
  | _ => analysisFailure "单卷分析必须且只能包含一个精确范围。"

/-- The loop over `zip(ranges, ranges[1:])`. -/
def checkNeighbours (maxGapBlocks : ℕ) : List OutputRange → Except TenderError Unit
  | previous :: current :: ranges => do
    require (previous.stop < current.start)
      (.analysis ("分册范围重叠：" ++ previous.name ++ " 与 " ++ current.name ++ "。"))
    require (current.start - previous.stop - 1 ≤ maxGapBlocks)
      (.analysis ("分册范围存在未覆盖内容：" ++ previous.name ++ " 与 " ++ current.name ++ "。"))
    checkNeighbours maxGapBlocks (current :: ranges)
  | _ => pure ()

def checkLast (maxGapBlocks formatEndPosition : ℕ) (ranges : List OutputRange) :
    Except TenderError Unit :=
  require (∀ range ∈ ranges.getLast?, formatEndPosition - range.stop ≤ maxGapBlocks)
    (.analysis "最后一个分册没有覆盖到格式区域末尾。")

/-- `_validate_explicit_boundaries` -/
def validateExplicitBoundaries (analysis : TenderAnalysis) (document : TenderDocument)
    (maxGapBlocks : ℕ := 3) (requireCompleteSingleRange : Bool := true) :
    Except TenderError Unit :=
  match analysis.formatStartBlockId, analysis.formatEndBlockId with
  | some formatStart, some formatEnd =>
    match document.positionById formatStart.1, document.positionById formatEnd.1 with
    | some formatStartPosition, some formatEndPosition => do
      require (formatStartPosition ≤ formatEndPosition) (.analysis "招标格式区域边界顺序错误。")
      let unsorted ← outputRanges document formatStartPosition formatEndPosition [] []
        analysis.outputs
      let ranges := unsorted.insertionSort (· ≤ ·)
      if analysis.packageType = .singleVolume then
        checkSingleVolume formatStartPosition formatEndPosition requireCompleteSingleRange ranges
      else do
        checkNeighbours maxGapBlocks ranges
        checkLast maxGapBlocks formatEndPosition ranges
    | _, _ => analysisFailure "招标格式区域引用了不存在的边界。"
  | _, _ => analysisFailure "招标格式区域必须包含起止边界。"

/-! ## The volumes -/

/-- The positions of the first and the last block of an output. -/
def volume (document : TenderDocument) (output : TenderOutputPlan) : Option (ℕ × ℕ) := do
  let startId ← output.sourceStartBlockId
  let endId ← output.sourceEndBlockId
  let startPosition ← document.positionById startId.1
  let endPosition ← document.positionById endId.1
  pure (startPosition, endPosition)

/-- Block number `i` lies in the volume of the output. -/
def InVolume (document : TenderDocument) (output : TenderOutputPlan) (i : ℕ) : Prop :=
  ∃ range ∈ volume document output, Holds range i

/-- The positions of the first and the last block of the format region. -/
def formatRegion (document : TenderDocument) (analysis : TenderAnalysis) : Option (ℕ × ℕ) := do
  let formatStart ← analysis.formatStartBlockId
  let formatEnd ← analysis.formatEndBlockId
  let formatStartPosition ← document.positionById formatStart.1
  let formatEndPosition ← document.positionById formatEnd.1
  pure (formatStartPosition, formatEndPosition)

def OutputRange.bounds (range : OutputRange) : ℕ × ℕ := (range.start, range.stop)

section

variable {analysis : TenderAnalysis} {document : TenderDocument} {output : TenderOutputPlan}
  {outputs : List TenderOutputPlan} {range : OutputRange} {ranges : List OutputRange}
  {formatStartPosition formatEndPosition maxGapBlocks : ℕ} {names slugs : List String}
  {complete : Bool}

theorem outputRange_ok
    (h : outputRange document formatStartPosition formatEndPosition names slugs output =
      .ok range) :
    volume document output = some range.bounds ∧ range.start ≤ range.stop := by
  unfold outputRange at h
  unfold volume
  cases hstart : output.sourceStartBlockId with
  | none => simp [hstart, analysisFailure] at h
  | some startId =>
    cases hend : output.sourceEndBlockId with
    | none => simp [hstart, hend, analysisFailure] at h
    | some endId =>
      cases hfirst : document.positionById startId.1 with
      | none => simp [hstart, hend, hfirst, analysisFailure] at h
      | some startPosition =>
        cases hlast : document.positionById endId.1 with
        | none => simp [hstart, hend, hfirst, hlast, analysisFailure] at h
        | some endPosition =>
          simp only [hstart, hend, hfirst, hlast, except_bind_ok, require_ok, exists_unit,
            except_pure_ok] at h
          rcases h with ⟨hle, -, -, -, rfl⟩
          constructor
          · simp only [Option.bind_eq_bind, Option.bind_some, hfirst, hlast]
            rfl
          · exact hle

theorem outputRanges_ok
    (h : outputRanges document formatStartPosition formatEndPosition names slugs outputs =
      .ok ranges) :
    ranges.map OutputRange.bounds = outputs.filterMap (volume document) ∧
      ∀ range ∈ ranges, range.start ≤ range.stop := by
  induction outputs generalizing names slugs ranges with
  | nil =>
    simp only [outputRanges, except_pure_ok] at h
    simp [← h]
  | cons output outputs ih =>
    simp only [outputRanges, except_bind_ok, except_pure_ok] at h
    rcases h with ⟨range, hrange, rest, hrest, rfl⟩
    rcases outputRange_ok hrange with ⟨hvolume, hle⟩
    rcases ih hrest with ⟨hvolumes, hwell⟩
    rw [List.map_cons, List.filterMap_cons_some hvolume, hvolumes]
    exact ⟨rfl, List.forall_mem_cons.2 ⟨hle, hwell⟩⟩

theorem checkNeighbours_ok (h : checkNeighbours maxGapBlocks ranges = .ok ()) :
    (ranges.map OutputRange.bounds).IsChain (Follows maxGapBlocks) := by
  induction ranges with
  | nil => exact List.isChain_nil
  | cons previous ranges ih =>
    cases ranges with
    | nil => exact List.isChain_singleton _
    | cons current ranges =>
      simp only [checkNeighbours, except_bind_ok, require_ok, exists_unit] at h
      rcases h with ⟨hafter, hnear, hrest⟩
      exact List.isChain_cons_cons.2 ⟨⟨hafter, hnear⟩, ih hrest⟩

theorem checkLast_ok (h : checkLast maxGapBlocks formatEndPosition ranges = .ok ())
    (hne : ranges.map OutputRange.bounds ≠ []) :
    formatEndPosition - ((ranges.map OutputRange.bounds).getLast hne).2 ≤ maxGapBlocks := by
  simp only [checkLast, require_ok] at h
  have hne' : ranges ≠ [] := fun hnil => hne (by rw [hnil, List.map_nil])
  rw [List.getLast_map]
  exact h _ (List.getLast?_eq_some_getLast hne')

/-- What the check of more than one volume says: the ranges stand in a row, up to the end of the
format region. -/
theorem validateExplicitBoundaries_ok
    (h : validateExplicitBoundaries analysis document maxGapBlocks complete = .ok ())
    (hvolumes : analysis.packageType ≠ .singleVolume) :
    ∃ region ∈ formatRegion document analysis, ∃ row : List (ℕ × ℕ),
      row.Perm (analysis.outputs.filterMap (volume document)) ∧ (∀ r ∈ row, r.1 ≤ r.2) ∧
      row.IsChain (Follows maxGapBlocks) ∧
      ∀ hne : row ≠ [], region.2 - (row.getLast hne).2 ≤ maxGapBlocks := by
  unfold validateExplicitBoundaries at h
  unfold formatRegion
  cases hstart : analysis.formatStartBlockId with
  | none => simp [hstart, analysisFailure] at h
  | some formatStart =>
    cases hend : analysis.formatEndBlockId with
    | none => simp [hstart, hend, analysisFailure] at h
    | some formatEnd =>
      cases hfirst : document.positionById formatStart.1 with
      | none => simp [hstart, hend, hfirst, analysisFailure] at h
      | some first =>
        cases hlast : document.positionById formatEnd.1 with
        | none => simp [hstart, hend, hfirst, hlast, analysisFailure] at h
        | some last =>
          simp only [hstart, hend, hfirst, hlast, except_bind_ok, require_ok, exists_unit,
            if_neg hvolumes] at h
          rcases h with ⟨-, ranges, hranges, hneighbours, hcheck⟩
          rcases outputRanges_ok hranges with ⟨heq, hwell⟩
          have hperm := ranges.perm_insertionSort (· ≤ ·)
          refine ⟨(first, last), ?_, (ranges.insertionSort (· ≤ ·)).map OutputRange.bounds, ?_, ?_,
            checkNeighbours_ok hneighbours, checkLast_ok hcheck⟩
          · simp only [Option.bind_eq_bind, Option.bind_some, hfirst, hlast]
            rfl
          · rw [← heq]
            exact hperm.map OutputRange.bounds
          · rw [List.forall_mem_map]
            intro range hrange
            exact hwell range (hperm.mem_iff.1 hrange)

theorem inVolume_iff {i : ℕ} : (∃ output ∈ outputs, InVolume document output i) ↔
    ∃ r ∈ outputs.filterMap (volume document), Holds r i := by
  simp only [List.mem_filterMap, InVolume, Option.mem_def]
  constructor
  · rintro ⟨output, houtput, r, hr, hi⟩
    exact ⟨r, ⟨output, houtput, hr⟩, hi⟩
  · rintro ⟨r, ⟨output, houtput, hr⟩, hi⟩
    exact ⟨output, houtput, r, hr, hi⟩

/-- **What an accepted analysis covers.** No block lies in two volumes, and a run of more than
`maxGapBlocks` blocks of the format region meets a volume, unless it ends before the first volume
starts. -/
theorem volumes_cover
    (h : validateExplicitBoundaries analysis document maxGapBlocks complete = .ok ())
    (hvolumes : analysis.packageType ≠ .singleVolume) :
    (analysis.outputs.Pairwise fun output output' =>
      ∀ i, ¬(InVolume document output i ∧ InVolume document output' i)) ∧
    ∃ region ∈ formatRegion document analysis, ∀ a b,
      region.1 ≤ a → b ≤ region.2 → a + maxGapBlocks ≤ b →
        (∃ i, a ≤ i ∧ i ≤ b ∧ ∃ output ∈ analysis.outputs, InVolume document output i) ∨
        ∀ output ∈ analysis.outputs, ∀ i, InVolume document output i → b < i := by
  rcases validateExplicitBoundaries_ok h hvolumes with
    ⟨region, hregion, row, hperm, hwell, hchain, hlast⟩
  constructor
  · have hrow := (not_holds_both hwell hchain).perm hperm fun {r r'} hdisjoint i hboth =>
      hdisjoint i hboth.symm
    apply (List.pairwise_filterMap.1 hrow).imp
    intro output output' hdisjoint i hboth
    rcases hboth with ⟨⟨r, hr, hi⟩, r', hr', hi'⟩
    exact hdisjoint r hr r' hr' i ⟨hi, hi'⟩
  · refine ⟨region, hregion, fun a b _ hb hab => ?_⟩
    have hcovered (i : ℕ) : (∃ output ∈ analysis.outputs, InVolume document output i) ↔
        ∃ r ∈ row, Holds r i := by
      rw [inVolume_iff]
      simp only [hperm.mem_iff]
    have hbefore : (∀ output ∈ analysis.outputs, ∀ i, InVolume document output i → b < i) ↔
        ∀ i, (∃ r ∈ row, Holds r i) → b < i := by
      simp only [← hcovered]
      exact ⟨fun h i ⟨o, ho, hi⟩ => h o ho i hi, fun h o ho i hi => h i ⟨o, ho, hi⟩⟩
    simp only [hcovered, hbefore]
    cases row with
    | nil => exact Or.inr (by simp)
    | cons r row =>
      by_cases hfirst : r.1 ≤ b
      · exact Or.inl (exists_covered hwell hchain (hlast (List.cons_ne_nil r row)) hfirst hab hb)
      · apply Or.inr
        rintro i ⟨r', hr', hi⟩
        have hle : r.1 ≤ r'.1 := first_le hwell hchain hr'
        have hge : r'.1 ≤ i := hi.1
        omega

end

/-! ## A preface that no volume covers -/

def tenBlocks : TenderDocument where
  blocks := ["b0", "b1", "b2", "b3", "b4", "b5", "b6", "b7", "b8", "b9"].map TenderDocumentBlock.mk

def businessVolume : TenderOutputPlan where
  name := ⟨"商务标", by decide⟩
  slug := ⟨"business", by decide⟩
  documentLabel := ⟨"商务标", by decide⟩
  sourceStartBlockId := some ⟨"b5", by decide⟩
  sourceEndBlockId := some ⟨"b6", by decide⟩

def technicalVolume : TenderOutputPlan where
  name := ⟨"技术标", by decide⟩
  slug := ⟨"technical", by decide⟩
  documentLabel := ⟨"技术标", by decide⟩
  sourceStartBlockId := some ⟨"b7", by decide⟩
  sourceEndBlockId := some ⟨"b9", by decide⟩

def twoVolumes : TenderAnalysis where
  status := .completed
  packageType := .multiVolume
  summary := ⟨"two volumes", by decide⟩
  formatStartBlockId := some ⟨"b0", by decide⟩
  formatEndBlockId := some ⟨"b9", by decide⟩
  outputs := [businessVolume, technicalVolume]

theorem volumes_cover_two :
    (twoVolumes.outputs.Pairwise fun output output' =>
      ∀ i, ¬(InVolume tenBlocks output i ∧ InVolume tenBlocks output' i)) ∧
    ∃ region ∈ formatRegion tenBlocks twoVolumes, ∀ a b,
      region.1 ≤ a → b ≤ region.2 → a + 3 ≤ b →
        (∃ i, a ≤ i ∧ i ≤ b ∧ ∃ output ∈ twoVolumes.outputs, InVolume tenBlocks output i) ∨
        ∀ output ∈ twoVolumes.outputs, ∀ i, InVolume tenBlocks output i → b < i := by
  have haccepted : validateExplicitBoundaries twoVolumes tenBlocks = .ok () := by decide +kernel
  exact volumes_cover haccepted (by decide)

/-- The five blocks before the first volume are in no volume. -/
theorem preface_uncovered :
    ¬∀ (analysis : TenderAnalysis) (document : TenderDocument),
      (document.blocks.map (·.blockId)).Nodup → analysis.packageType = .multiVolume →
      validateExplicitBoundaries analysis document = .ok () →
      ∃ region ∈ formatRegion document analysis, ∀ a b,
        region.1 ≤ a → b ≤ region.2 → a + 3 ≤ b →
          ∃ i, a ≤ i ∧ i ≤ b ∧ ∃ output ∈ analysis.outputs, InVolume document output i := by
  intro h
  rcases h twoVolumes tenBlocks (by decide) rfl (by decide +kernel) with ⟨region, hregion, hcover⟩
  have hwhole : formatRegion tenBlocks twoVolumes = some (0, 9) := by decide +kernel
  have hbusiness : volume tenBlocks businessVolume = some (5, 6) := by decide +kernel
  have htechnical : volume tenBlocks technicalVolume = some (7, 9) := by decide +kernel
  have heq : region = (0, 9) := Option.some.inj (hregion.symm.trans hwhole)
  subst heq
  rcases hcover 0 3 (Nat.zero_le 0) (by decide) (Nat.le_refl 3) with ⟨i, -, hi, output, ho, hin⟩
  rcases hin with ⟨range, hrange, hstart, -⟩
  simp only [twoVolumes, List.mem_cons, List.not_mem_nil, or_false] at ho
  rcases ho with rfl | rfl
  · rw [hbusiness] at hrange
    cases hrange
    omega
  · rw [htechnical] at hrange
    cases hrange
    omega

end GoAgent.Tender
