import GoAgent.Tender.Boundaries
import GoAgent.Tender.ResultResources

/-!
# The file names of the volumes

The renderer names the file of each output after the output: without the white space around the
name, without the characters that no file name may hold, and with the extension of a document.

* `file_names_distinct_iff` — the names of the files are pairwise distinct if and only if no two
  names of outputs are alike up to what the renderer changes.
-/

namespace GoAgent.Tender

open GoAgent.Foundation GoAgent.Attachments

/-! ## The renderer -/

/-- The characters of `str.maketrans` in `_docx_name`. -/
def replacedChars : List Char := ['\\', '/', ':', '*', '?', '"', '<', '>', '|']

def underscored (c : Char) : Char := if c ∈ replacedChars then '_' else c

def docxSuffix : List Char := ['.', 'd', 'o', 'c', 'x']

/-- `normalized.lower().endswith(".docx")`: no other character becomes one of these in `lower`. -/
def endsWithDocx (s : List Char) : Bool :=
  (s.drop (s.length - 5)).map Char.toLower == docxSuffix

/-- `output_name.strip() or "投标文件"` -/
def shownName (outputName : String) : List Char :=
  let stripped := (strip outputName).toList
  if stripped = [] then "投标文件".toList else stripped

/-- `_docx_name` -/
def docxName (outputName : String) : String :=
  let normalized := (shownName outputName).map underscored
  String.ofList (if endsWithDocx normalized then normalized else normalized ++ docxSuffix)

def docxMediaType : String :=
  "application/vnd.openxmlformats-officedocument.wordprocessingml.document"

structure TenderRenderError where
  message : String
  deriving DecidableEq

/-- The loop of `render`; `renderOutput` stands for `_render_output`, which copies the blocks of an
output with the document library, or raises with a text. -/
def renderOutputs (renderOutput : TenderOutputPlan → Except String Bytes) :
    List TenderOutputPlan → Except String (List GeneratedTenderArtifact)
  | [] => .ok []
  | output :: outputs => do
    let content ← renderOutput output
    let artifacts ← renderOutputs renderOutput outputs
    pure ({ fileName := docxName output.name.1
            mediaType := docxMediaType
            content } :: artifacts)

/-- `TenderDocxSkeletonRenderer.render` -/
def render (renderOutput : TenderOutputPlan → Except String Bytes) (analysis : TenderAnalysis) :
    Except TenderRenderError (List GeneratedTenderArtifact) :=
  match renderOutputs renderOutput analysis.outputs with
  | .error e => .error ⟨"投标骨架文件生成失败：" ++ e⟩
  | .ok [] => .error ⟨"投标分析没有可生成的输出文件。"⟩
  | .ok artifacts => .ok artifacts

/-! ## Names that are alike -/

/-- Characters that a file name does not tell apart. -/
def SameChar (c d : Char) : Prop :=
  c = d ∨ (c ∈ '_' :: replacedChars ∧ d ∈ '_' :: replacedChars)

def SameText (s t : List Char) : Prop := List.Forall₂ SameChar s t

/-- Names that agree up to the replaced characters, or do so once one of them, which has no
extension, gets one. -/
def Alike (a b : String) : Prop :=
  SameText (shownName a) (shownName b) ∨
    (endsWithDocx (shownName b) = false ∧ SameText (shownName a) (shownName b ++ docxSuffix)) ∨
    (endsWithDocx (shownName a) = false ∧ SameText (shownName a ++ docxSuffix) (shownName b))

section Names

variable {s t : List Char} {c d : Char} {a b : String}

theorem underscored_eq_iff : underscored c = underscored d ↔ SameChar c d := by
  have hunder : '_' ∉ replacedChars := by decide
  unfold underscored SameChar
  simp only [List.mem_cons]
  split_ifs with hc hd hd
  · simp [hc, hd]
  · constructor
    · rintro rfl
      exact Or.inr ⟨Or.inr hc, Or.inl rfl⟩
    · rintro (rfl | ⟨-, rfl | h⟩)
      · exact absurd hc hd
      · rfl
      · exact absurd h hd
  · constructor
    · rintro rfl
      exact Or.inr ⟨Or.inl rfl, Or.inr hd⟩
    · rintro (rfl | ⟨rfl | h, -⟩)
      · exact absurd hd hc
      · rfl
      · exact absurd h hc
  · constructor
    · exact Or.inl
    · rintro (h | ⟨rfl | h, rfl | h'⟩)
      · exact h
      · rfl
      · exact absurd h' hd
      · exact absurd h hc
      · exact absurd h hc

theorem map_underscored_eq_iff : s.map underscored = t.map underscored ↔ SameText s t := by
  induction s generalizing t with
  | nil =>
    cases t with
    | nil => simp [SameText]
    | cons d t => simp [SameText]
  | cons c s ih =>
    cases t with
    | nil => simp [SameText]
    | cons d t =>
      rw [List.map_cons, List.map_cons, List.cons.injEq, ih, underscored_eq_iff, SameText, SameText,
        List.forall₂_cons]

/-- No replaced character is one of the extension. -/
theorem toLower_underscored (hd : d ∈ docxSuffix) :
    (underscored c).toLower = d ↔ c.toLower = d := by
  unfold underscored
  split_ifs with hc
  · have hall : (replacedChars.all fun c => docxSuffix.all fun d =>
        ('_'.toLower != d) && (c.toLower != d)) = true := by decide
    have h := List.all_eq_true.1 (List.all_eq_true.1 hall c hc) d hd
    simp only [Bool.and_eq_true, bne_iff_ne] at h
    exact iff_of_false h.1 h.2
  · rfl

theorem map_toLower_underscored {suffix : List Char} (hsuffix : ∀ d ∈ suffix, d ∈ docxSuffix) :
    (s.map underscored).map Char.toLower = suffix ↔ s.map Char.toLower = suffix := by
  induction s generalizing suffix with
  | nil => rfl
  | cons c s ih =>
    cases suffix with
    | nil => simp
    | cons d suffix =>
      rw [List.forall_mem_cons] at hsuffix
      rw [List.map_cons, List.map_cons, List.map_cons, List.cons.injEq, List.cons.injEq,
        toLower_underscored hsuffix.1, ih hsuffix.2]

theorem endsWithDocx_underscored : endsWithDocx (s.map underscored) = endsWithDocx s := by
  have h := map_toLower_underscored (s := s.drop (s.length - 5)) fun d hd => hd
  rw [Bool.eq_iff_iff, endsWithDocx, endsWithDocx, beq_iff_eq, beq_iff_eq, List.length_map,
    ← List.map_drop, h]

theorem endsWithDocx_append : endsWithDocx (s ++ docxSuffix) = true := by
  have hdrop : (s ++ docxSuffix).drop ((s ++ docxSuffix).length - 5) = docxSuffix :=
    List.drop_left' (by rw [List.length_append]; rfl)
  rw [endsWithDocx, hdrop]
  decide

theorem SameText.endsWithDocx_eq (h : SameText s t) : endsWithDocx s = endsWithDocx t := by
  rw [← endsWithDocx_underscored, map_underscored_eq_iff.2 h, endsWithDocx_underscored]

/-- Two files have the same name if and only if the names of their outputs are alike. -/
theorem docxName_eq_iff : docxName a = docxName b ↔ Alike a b := by
  have hsuffix : docxSuffix.map underscored = docxSuffix := by decide
  have hright : SameText (shownName a) (shownName b ++ docxSuffix) ↔
      (shownName a).map underscored = (shownName b).map underscored ++ docxSuffix := by
    rw [← map_underscored_eq_iff, List.map_append, hsuffix]
  have hleft : SameText (shownName a ++ docxSuffix) (shownName b) ↔
      (shownName a).map underscored ++ docxSuffix = (shownName b).map underscored := by
    rw [← map_underscored_eq_iff, List.map_append, hsuffix]
  have hends : ∀ s, endsWithDocx (s.map underscored) = endsWithDocx s :=
    fun s => endsWithDocx_underscored
  rw [docxName, docxName, String.ofList_inj, hends, hends, Alike, hright, hleft,
    ← map_underscored_eq_iff]
  -- names of which one has the extension and the other has not are different
  have hne : endsWithDocx (shownName a) ≠ endsWithDocx (shownName b) →
      (shownName a).map underscored ≠ (shownName b).map underscored := by
    intro h heq
    apply h
    rw [← hends, heq, hends]
  have hne_right : endsWithDocx (shownName a) = false →
      (shownName a).map underscored ≠ (shownName b).map underscored ++ docxSuffix := by
    intro h heq
    rw [← hends, heq, endsWithDocx_append] at h
    cases h
  have hne_left : endsWithDocx (shownName b) = false →
      (shownName a).map underscored ++ docxSuffix ≠ (shownName b).map underscored := by
    intro h heq
    rw [← hends, ← heq, endsWithDocx_append] at h
    cases h
  cases ha : endsWithDocx (shownName a) <;> cases hb : endsWithDocx (shownName b)
  · simp [hne_right ha, hne_left hb]
  · simp [hne (by simp [ha, hb])]
  · simp [hne (by simp [ha, hb])]
  · simp

/-- The files that are rendered are named after the outputs, in order. -/
theorem fileNames_renderOutputs {renderOutput : TenderOutputPlan → Except String Bytes}
    {outputs : List TenderOutputPlan} {artifacts : List GeneratedTenderArtifact}
    (h : renderOutputs renderOutput outputs = .ok artifacts) :
    artifacts.map GeneratedTenderArtifact.fileName =
      outputs.map fun output => docxName output.name.1 := by
  induction outputs generalizing artifacts with
  | nil =>
    cases h
    rfl
  | cons output outputs ih =>
    simp only [renderOutputs, except_bind_ok, except_pure_ok] at h
    rcases h with ⟨content, -, others, hothers, rfl⟩
    rw [List.map_cons, List.map_cons, ih hothers]

theorem render_ok {renderOutput : TenderOutputPlan → Except String Bytes} {analysis : TenderAnalysis}
    {artifacts : List GeneratedTenderArtifact} (h : render renderOutput analysis = .ok artifacts) :
    renderOutputs renderOutput analysis.outputs = .ok artifacts := by
  rw [render] at h
  split at h
  · cases h
  · cases h
  · cases h
    assumption

/-- **When no two volumes have one file name.** -/
theorem file_names_distinct_iff {renderOutput : TenderOutputPlan → Except String Bytes}
    {analysis : TenderAnalysis} {artifacts : List GeneratedTenderArtifact}
    (h : render renderOutput analysis = .ok artifacts) :
    (artifacts.map GeneratedTenderArtifact.fileName).Nodup ↔
      analysis.outputs.Pairwise fun output output' => ¬Alike output.name.1 output'.name.1 := by
  rw [fileNames_renderOutputs (render_ok h), List.Nodup, List.pairwise_map]
  simp only [ne_eq, docxName_eq_iff]

end Names

/-! ## Two volumes of one name -/

def slashVolume : TenderOutputPlan :=
  { businessVolume with name := ⟨"A/B", by decide⟩ }

def colonVolume : TenderOutputPlan :=
  { technicalVolume with name := ⟨"A:B", by decide⟩ }

/-- The two volumes under names that differ in a replaced character. -/
def alikeVolumes : TenderAnalysis :=
  { twoVolumes with outputs := [slashVolume, colonVolume] }

theorem file_names_of_two : ∃ artifacts, render (fun _ => .ok []) alikeVolumes = .ok artifacts ∧
    ((artifacts.map GeneratedTenderArtifact.fileName).Nodup ↔
      alikeVolumes.outputs.Pairwise fun output output' =>
        ¬Alike output.name.1 output'.name.1) := by
  have h : ∃ artifacts, render (fun _ => .ok []) alikeVolumes = .ok artifacts := ⟨_, rfl⟩
  rcases h with ⟨artifacts, hartifacts⟩
  exact ⟨artifacts, hartifacts, file_names_distinct_iff hartifacts⟩

/-- Both files are `A_B.docx`. -/
theorem replaced_names_collide : ¬∀ (renderOutput : TenderOutputPlan → Except String Bytes)
    (analysis : TenderAnalysis) (document : TenderDocument)
    (artifacts : List GeneratedTenderArtifact),
      validateExplicitBoundaries analysis document = .ok () →
      render renderOutput analysis = .ok artifacts →
        (artifacts.map GeneratedTenderArtifact.fileName).Nodup := by
  intro h
  have hnodup := h (fun _ => .ok []) alikeVolumes tenBlocks _ (by decide +kernel) rfl
  have hsame : docxName "A/B" = docxName "A:B" := by decide +kernel
  rw [List.map_cons, List.nodup_cons, List.map_singleton, List.mem_singleton] at hnodup
  exact hnodup.1 hsame

end GoAgent.Tender
