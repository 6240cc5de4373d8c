import GoAgent.Foundation.Text

/-!
# Evaluating a submission against a checklist

`RuleDrivenChecklistPolicy.evaluate_submission` compares the submitted items with the components
of every required material. Both are normalized: lowered, and stripped of white space and
punctuation. An item matches a component if it contains an alias of it or is contained in one. The
policy skips blank items, but not the items that only normalization leaves empty, and the empty
text is contained in every alias.

**Theorem (`counts_iff`).** An evaluation counts the components that an item with some text
matches, and decides accordingly, exactly when no submitted item loses all its characters in
normalization, or every component with an alias is matched by another item.

* `matchedRawItems_ne_nil` — when a component counts as matched.
* `decision_congr` — the decision depends on the matched components only.
-/

namespace GoAgent.Checklist

open GoAgent.Foundation

/-! ## Definitions -/

structure ChecklistRequirementComponent where
  label : String
  aliases : List String

structure ChecklistRequirementDefinition where
  fieldKey : String
  label : String
  components : List ChecklistRequirementComponent
  evidenceKeywords : List String
  required : Bool := true

structure ChecklistScenarioDefinition where
  scenarioCode : String
  scenarioName : String
  requirements : List ChecklistRequirementDefinition
  minRuleMatchCount : Nat := 1

structure ChecklistRequirementEvidence where
  definition : ChecklistRequirementDefinition
  matchedRuleKeywords : List String

def ChecklistRequirementEvidence.ruleMatched (evidence : ChecklistRequirementEvidence) : Bool :=
  !evidence.matchedRuleKeywords.isEmpty

structure ChecklistRulePack where
  scenario : ChecklistScenarioDefinition
  requirements : List ChecklistRequirementEvidence

structure ChecklistRequirementDecision where
  evidence : ChecklistRequirementEvidence
  submitted : Bool
  matchedSubmissionItems : List String
  matchedComponents : List String
  missingComponents : List String

structure ChecklistEvaluationResult where
  scenario : ChecklistScenarioDefinition
  decisions : List ChecklistRequirementDecision

def ChecklistEvaluationResult.usedFieldLabels (result : ChecklistEvaluationResult) : List String :=
  (result.decisions.filter fun d => d.evidence.ruleMatched && d.submitted).map
    fun d => d.evidence.definition.label

def ChecklistEvaluationResult.missingFieldLabels (result : ChecklistEvaluationResult) :
    List String :=
  (result.decisions.filter fun d =>
    d.evidence.ruleMatched && d.evidence.definition.required && !d.submitted).map
      fun d => d.evidence.definition.label

/-! ## The policy -/

/-- `str.lower`: white space has no case, and nothing else becomes white space. -/
structure LowerCase where
  lower : String → String
  isBlank_lower : ∀ s, isBlank (lower s) = isBlank s

/-- `[\s\u3000()（）\[\]【】,，。:：;；、\-_]` -/
def isNoise (c : Char) : Bool := isSpace c || c ∈ "()（）[]【】,，。:：;；、-_".toList

section

variable (case : LowerCase)

/-- `_normalize_text` -/
def normalizeText (value : String) : String :=
  String.ofList ((strip (case.lower value)).toList.filter fun c => !isNoise c)

def buildRulePack (scenario : ChecklistScenarioDefinition) (ruleTexts : List String) :
    ChecklistRulePack :=
  let normalizedRuleText := normalizeText case ("\n".intercalate ruleTexts)
  { scenario
    requirements := scenario.requirements.map fun requirement =>
      { definition := requirement
        matchedRuleKeywords := requirement.evidenceKeywords.filter fun keyword =>
          contains (normalizeText case keyword).toList normalizedRuleText.toList } }

/-- `alias in normalized_item or normalized_item in alias` -/
def overlaps (aliasText normalizedItem : String) : Bool :=
  contains aliasText.toList normalizedItem.toList || contains normalizedItem.toList aliasText.toList

/-- The items that are not blank, with their normalized texts. -/
def normalizedSubmittedItems (submittedItems : List String) : List (String × String) :=
  (submittedItems.filter fun item => !isBlank item).map fun item =>
    (strip item, normalizeText case item)

def matchedRawItems (component : ChecklistRequirementComponent) (items : List (String × String)) :
    List String :=
  let componentAliases := component.aliases.map (normalizeText case)
  (items.filter fun item => componentAliases.any fun a => overlaps a item.2).map Prod.fst

/-- `if raw_item not in matched_submission_items: matched_submission_items.append(raw_item)` -/
def appendNew (matched : List String) (rawItem : String) : List String :=
  if rawItem ∈ matched then matched else matched ++ [rawItem]

def evaluateRequirement (items : List (String × String)) (evidence : ChecklistRequirementEvidence) :
    ChecklistRequirementDecision :=
  let components := evidence.definition.components
  let matchedComponents := components.filter fun c => !(matchedRawItems case c items).isEmpty
  let missingComponents := components.filter fun c => (matchedRawItems case c items).isEmpty
  { evidence
    submitted := evidence.ruleMatched && missingComponents.isEmpty
    matchedSubmissionItems :=
      (components.flatMap fun c => matchedRawItems case c items).foldl appendNew []
    matchedComponents := matchedComponents.map ChecklistRequirementComponent.label
    missingComponents := missingComponents.map ChecklistRequirementComponent.label }

def evaluateSubmission (rulePack : ChecklistRulePack) (submittedItems : List String) :
    ChecklistEvaluationResult where
  scenario := rulePack.scenario
  decisions := rulePack.requirements.map
    (evaluateRequirement case (normalizedSubmittedItems case submittedItems))

inductive DecisionStatus where
  | pass | fail
  deriving DecidableEq

/-- What the decision service makes of an evaluation. -/
def decisionOf (evaluation : ChecklistEvaluationResult) : DecisionStatus :=
  if evaluation.missingFieldLabels = [] then .pass else .fail

end

variable {case : LowerCase} {pack : ChecklistRulePack} {items items' : List String}
  {component : ChecklistRequirementComponent} {evidence : ChecklistRequirementEvidence}
  {item : String}

/-! ## When a component counts as matched -/

/-- The item has nothing left when it is normalized. -/
def Empties (case : LowerCase) (item : String) : Prop := normalizeText case item = ""

instance : DecidablePred (Empties case) := fun _ => inferInstanceAs (Decidable (_ = _))

/-- Some item with some text left contains an alias of the component, or is contained in one. -/
def Matches (case : LowerCase) (component : ChecklistRequirementComponent) (items : List String) :
    Prop :=
  ∃ item ∈ items, ¬Empties case item ∧
    ∃ a ∈ component.aliases, overlaps (normalizeText case a) (normalizeText case item) = true

instance : Decidable (Matches case component items) := by unfold Matches; infer_instance

theorem empties_of_isBlank (h : isBlank item = true) : Empties case item := by
  have hblank : isBlank (strip (case.lower item)) = true := by
    rw [isBlank_strip, case.isBlank_lower, h]
  unfold Empties normalizeText
  rw [String.ofList_eq_empty_iff, List.filter_eq_nil_iff]
  intro c hc
  have hs := List.all_eq_true.1 hblank c hc
  simp [isNoise, hs]

/-- The empty text is contained in every other. -/
theorem overlaps_empty {aliasText : String} : overlaps aliasText "" = true := by
  have hsuffix : ∃ x, x <:+ aliasText.toList := ⟨_, List.suffix_rfl⟩
  simp [overlaps, contains, hsuffix]

theorem matchedRawItems_ne_nil :
    matchedRawItems case component (normalizedSubmittedItems case items) ≠ [] ↔
      ∃ item ∈ items, isBlank item = false ∧
        ∃ a ∈ component.aliases, overlaps (normalizeText case a) (normalizeText case item) = true := by
  simp only [matchedRawItems, normalizedSubmittedItems, List.filter_map, ne_eq, List.map_eq_nil_iff,
    List.filter_eq_nil_iff, List.mem_filter, List.any_map, Function.comp_apply, List.any_eq_true]
  constructor
  · intro h
    by_contra hnone
    refine h fun item hitem hmatch => hnone ⟨item, hitem.1, by simpa using hitem.2, hmatch⟩
  · rintro ⟨item, hmem, hblank, hmatch⟩ hnone
    exact hnone item ⟨hmem, by simpa using hblank⟩ hmatch

/-- An item that normalization leaves empty matches every component with an alias. -/
theorem counts_iff_or : matchedRawItems case component (normalizedSubmittedItems case items) ≠ [] ↔
    Matches case component items ∨
      component.aliases ≠ [] ∧ ∃ item ∈ items, isBlank item = false ∧ Empties case item := by
  rw [matchedRawItems_ne_nil]
  constructor
  · rintro ⟨item, hmem, hblank, a, ha, hover⟩
    by_cases hempty : Empties case item
    · exact Or.inr ⟨List.ne_nil_of_mem ha, item, hmem, hblank, hempty⟩
    · exact Or.inl ⟨item, hmem, hempty, a, ha, hover⟩
  · rintro (⟨item, hmem, hempty, a, ha, hover⟩ | ⟨haliases, item, hmem, hblank, hempty⟩)
    · refine ⟨item, hmem, ?_, a, ha, hover⟩
      by_contra hblank
      exact hempty (empties_of_isBlank (by simpa using hblank))
    · obtain ⟨a, ha⟩ := List.exists_mem_of_ne_nil _ haliases
      refine ⟨item, hmem, hblank, a, ha, ?_⟩
      rw [show normalizeText case item = "" from hempty]
      exact overlaps_empty

/-- The component counts as matched exactly if an item with some text matches it. -/
def CountsRight (case : LowerCase) (component : ChecklistRequirementComponent)
    (items : List String) : Prop :=
  matchedRawItems case component (normalizedSubmittedItems case items) ≠ [] ↔
    Matches case component items

theorem countsRight_iff : CountsRight case component items ↔
    ((∃ item ∈ items, isBlank item = false ∧ Empties case item) → component.aliases ≠ [] →
      Matches case component items) := by
  unfold CountsRight
  rw [counts_iff_or]
  constructor
  · intro h hempty haliases
    exact h.1 (Or.inr ⟨haliases, hempty⟩)
  · intro h
    refine ⟨fun hor => ?_, Or.inl⟩
    rcases hor with hmatch | ⟨haliases, hempty⟩
    · exact hmatch
    · exact h hempty haliases

theorem matches_withText : Matches case component (items.filter fun item => ¬Empties case item) ↔
    Matches case component items := by
  unfold Matches
  constructor
  · rintro ⟨item, hmem, h⟩
    exact ⟨item, List.mem_of_mem_filter hmem, h⟩
  · rintro ⟨item, hmem, htext, h⟩
    exact ⟨item, List.mem_filter.2 ⟨hmem, by simpa using htext⟩, htext, h⟩

theorem countsRight_withText :
    CountsRight case component (items.filter fun item => ¬Empties case item) := by
  rw [countsRight_iff]
  rintro ⟨item, hmem, -, hempty⟩
  have htext := (List.mem_filter.1 hmem).2
  simp [hempty] at htext

/-! ## The decision -/

/-- The requirement is asked for and not met. -/
def Unmet (case : LowerCase) (items : List String) (evidence : ChecklistRequirementEvidence) : Prop :=
  evidence.ruleMatched = true ∧ evidence.definition.required = true ∧
    ∃ c ∈ evidence.definition.components,
      matchedRawItems case c (normalizedSubmittedItems case items) = []

theorem decision_fail : decisionOf (evaluateSubmission case pack items) = .fail ↔
    ∃ evidence ∈ pack.requirements, Unmet case items evidence := by
  have hmissing : (evaluateSubmission case pack items).missingFieldLabels ≠ [] ↔
      ∃ evidence ∈ pack.requirements, Unmet case items evidence := by
    simp only [ChecklistEvaluationResult.missingFieldLabels, evaluateSubmission, ne_eq,
      List.map_eq_nil_iff, List.filter_map, List.filter_eq_nil_iff, not_forall, not_not]
    refine exists_congr fun evidence => ?_
    rw [exists_prop]
    refine and_congr_right fun _ => ?_
    simp only [Function.comp_apply, evaluateRequirement, Unmet, Bool.and_eq_true,
      Bool.not_eq_true', Bool.and_eq_false_iff, List.isEmpty_eq_false_iff, ne_eq,
      List.filter_eq_nil_iff, List.isEmpty_iff, not_forall, not_not, exists_prop, and_assoc]
    refine and_congr_right fun hrule => and_congr_right fun _ => ?_
    simp [hrule]
  rw [← hmissing]
  unfold decisionOf
  split_ifs with h <;> simp [h]

/-- The decision depends on the matched components only. -/
theorem decision_congr (h : ∀ evidence ∈ pack.requirements, ∀ c ∈ evidence.definition.components,
      (matchedRawItems case c (normalizedSubmittedItems case items) ≠ [] ↔
        matchedRawItems case c (normalizedSubmittedItems case items') ≠ [])) :
    decisionOf (evaluateSubmission case pack items) =
      decisionOf (evaluateSubmission case pack items') := by
  have hfail : decisionOf (evaluateSubmission case pack items) = .fail ↔
      decisionOf (evaluateSubmission case pack items') = .fail := by
    rw [decision_fail, decision_fail]
    refine exists_congr fun evidence => and_congr_right fun hev => ?_
    unfold Unmet
    refine and_congr_right fun _ => and_congr_right fun _ => exists_congr fun c => ?_
    exact and_congr_right fun hc => not_iff_not.1 (h evidence hev c hc)
  cases hd : decisionOf (evaluateSubmission case pack items) <;>
    cases hd' : decisionOf (evaluateSubmission case pack items') <;> simp_all

/-! ## The main theorem -/

/-- What the evaluation says of the components of a requirement. -/
def countedComponents (decision : ChecklistRequirementDecision) : List String × List String :=
  (decision.matchedComponents, decision.missingComponents)

/-- The components of a requirement, as they ought to be counted. -/
def dueComponents (case : LowerCase) (items : List String) (evidence : ChecklistRequirementEvidence) :
    List String × List String :=
  ((evidence.definition.components.filter fun c => Matches case c items).map
      ChecklistRequirementComponent.label,
    (evidence.definition.components.filter fun c => ¬Matches case c items).map
      ChecklistRequirementComponent.label)

/-- The evaluation of a submission is right. -/
structure Evaluates (case : LowerCase) (pack : ChecklistRulePack) (items : List String) : Prop where
  counted : (evaluateSubmission case pack items).decisions.map countedComponents =
    pack.requirements.map (dueComponents case items)
  /-- Items without text do not change the decision. -/
  unchanged : decisionOf (evaluateSubmission case pack items) =
    decisionOf (evaluateSubmission case pack (items.filter fun item => ¬Empties case item))
  /-- Items without text do not pass. -/
  unmet : (∀ item ∈ items, Empties case item) → ∀ evidence ∈ pack.requirements,
    evidence.ruleMatched = true → evidence.definition.required = true →
      evidence.definition.components ≠ [] →
        decisionOf (evaluateSubmission case pack items) = .fail

/-- Two filters, one within the other, that keep as many elements agree. -/
theorem filter_agree {α : Type} {p q : α → Bool} {l : List α} (hqp : ∀ x ∈ l, q x = true → p x = true)
    (hlen : (l.filter p).length = (l.filter q).length) : ∀ x ∈ l, (p x = true ↔ q x = true) := by
  have hsub : (l.filter p).filter q = l.filter q := by
    rw [List.filter_filter]
    exact List.filter_congr fun x hx => by
      have himp := hqp x hx
      cases hq : q x <;> simp_all
  have hall : (l.filter p).filter q = l.filter p :=
    List.filter_sublist.eq_of_length (by rw [hsub, hlen])
  intro x hx
  refine ⟨fun hp => ?_, hqp x hx⟩
  have hmem : x ∈ (l.filter p).filter q := by
    rw [hall]
    exact List.mem_filter.2 ⟨hx, hp⟩
  exact (List.mem_filter.1 hmem).2

theorem matches_counts (h : Matches case component items) :
    matchedRawItems case component (normalizedSubmittedItems case items) ≠ [] :=
  counts_iff_or.2 (Or.inl h)

theorem counted_iff :
    (evaluateSubmission case pack items).decisions.map countedComponents =
        pack.requirements.map (dueComponents case items) ↔
      ∀ evidence ∈ pack.requirements, ∀ c ∈ evidence.definition.components,
        CountsRight case c items := by
  simp only [evaluateSubmission, List.map_map, List.map_inj_left, Function.comp_apply]
  refine forall₂_congr fun evidence _ => ?_
  simp only [countedComponents, evaluateRequirement, dueComponents, Prod.mk.injEq]
  constructor
  · rintro ⟨hmatched, -⟩ c hc
    have hlen := congrArg List.length hmatched
    rw [List.length_map, List.length_map] at hlen
    have hagree := filter_agree (fun c _ h => by
      have hmatch : Matches case c items := by simpa using h
      simpa using matches_counts hmatch) hlen c hc
    simpa [CountsRight] using hagree
  · intro h
    constructor
    · congr 1
      apply List.filter_congr
      intro c hc
      have hright := h c hc
      unfold CountsRight at hright
      by_cases hmatch : Matches case c items <;> simp_all
    · congr 1
      apply List.filter_congr
      intro c hc
      have hright := h c hc
      unfold CountsRight at hright
      by_cases hmatch : Matches case c items <;> simp_all

/-- No submitted item is left without text by normalization, or every component that has an alias
is matched by an item with text. -/
def TextsDecide (case : LowerCase) (pack : ChecklistRulePack) (items : List String) : Prop :=
  (∃ item ∈ items, isBlank item = false ∧ Empties case item) →
    ∀ evidence ∈ pack.requirements, ∀ c ∈ evidence.definition.components, c.aliases ≠ [] →
      Matches case c items

/-- **Evaluation.** A submission is evaluated right exactly when its texts decide. -/
theorem counts_iff (case : LowerCase) (pack : ChecklistRulePack) (items : List String) :
    Evaluates case pack items ↔ TextsDecide case pack items := by
  have hcounted : (∀ evidence ∈ pack.requirements, ∀ c ∈ evidence.definition.components,
      CountsRight case c items) ↔ TextsDecide case pack items := by
    simp only [countsRight_iff]
    exact ⟨fun h hempty evidence hev c hc => h evidence hev c hc hempty,
      fun h evidence hev c hc hempty => h hempty evidence hev c hc⟩
  rw [← hcounted, ← counted_iff]
  refine ⟨Evaluates.counted, fun h => ⟨h, ?_, ?_⟩⟩
  · have hright := counted_iff.1 h
    refine decision_congr fun evidence hev c hc => ?_
    exact (hright evidence hev c hc).trans
      (matches_withText.symm.trans countsRight_withText.symm)
  · intro hall evidence hev hrule hrequired hcomponents
    obtain ⟨c, hc⟩ := List.exists_mem_of_ne_nil _ hcomponents
    refine decision_fail.2 ⟨evidence, hev, hrule, hrequired, c, hc, ?_⟩
    by_contra hne
    obtain ⟨item, hmem, htext, -⟩ := (counted_iff.1 h evidence hev c hc).1 hne
    exact htext (hall item hmem)

/-! ## A dash -/

def lowerChar (c : Char) : Char := if isUpper c then Char.ofNat (97 + (c.toNat - 65)) else c

theorem isSpace_lowerChar {c : Char} : isSpace (lowerChar c) = isSpace c := by
  unfold lowerChar
  split_ifs with hupper
  · have hlower : ∀ n < 26, isSpace (Char.ofNat (97 + n)) = false := by decide
    have hrange : 65 ≤ c.toNat ∧ c.toNat ≤ 90 := by simpa [isUpper] using hupper
    have halnum : isAlnum c = true := by simp [isAlnum, hupper]
    rw [hlower _ (by omega), not_isSpace_of_isAlnum halnum]
  · rfl

def asciiCase : LowerCase where
  lower s := String.ofList (s.toList.map lowerChar)
  isBlank_lower s := by
    have hcomp : isSpace ∘ lowerChar = isSpace := funext fun c => isSpace_lowerChar
    rw [isBlank, String.toList_ofList, List.all_map, hcomp]
    rfl

def licence : ChecklistRequirementDefinition where
  fieldKey := "licence"
  label := "营业执照"
  components := [{ label := "营业执照", aliases := ["营业执照"] }]
  evidenceKeywords := ["营业执照"]

def licencePack : ChecklistRulePack where
  scenario :=
    { scenarioCode := "s", scenarioName := "s", requirements := [licence] }
  requirements := [{ definition := licence, matchedRuleKeywords := ["营业执照"] }]

theorem dash_passes : ¬∀ case pack items, Evaluates case pack items := by
  intro h
  have hpass : decisionOf (evaluateSubmission asciiCase licencePack ["-"]) = .pass := by
    decide +kernel
  have hempty : ∀ item ∈ ["-"], Empties asciiCase item := by decide +kernel
  have hfail := (h asciiCase licencePack ["-"]).unmet hempty _ (List.mem_singleton_self _) rfl rfl
    (List.cons_ne_nil _ _)
  rw [hpass] at hfail
  cases hfail

end GoAgent.Checklist
