import GoAgent.Checklist.Submission
import Mathlib.Data.List.Perm.Basic

/-!
# Finding the keywords of a checklist in rule fragments

`RuleDrivenChecklistPolicy.build_rule_pack` joins the fragments with line feeds and normalizes the
whole. Normalization deletes the line feeds too, so what it searches is the fragments' normalized
texts one after the other: a keyword is also found where it `Straddles` a border between them.

**Theorem (`rule_pack_iff`).** The keywords found are those that single fragments state, and do not
depend on the order of the fragments, exactly when in no order a keyword that no fragment states
straddles a border.

* `infix_flatten_iff` — what occurs in texts put together.
* `normalizeText_joined` — what is searched.
-/

namespace GoAgent.Checklist

open GoAgent.Foundation

/-! ## Borders -/

section

variable {α : Type} {part : List α} {fragments : List (List α)}

/-- The part begins at the end of one fragment, goes on over whole fragments, and ends at the start
of another. -/
def Straddles (part : List α) (fragments : List (List α)) : Prop :=
  ∃ before f between g after u v, fragments = before ++ f :: (between ++ g :: after) ∧
    u ≠ [] ∧ v ≠ [] ∧ u <:+ f ∧ v <+: g ∧ part = u ++ between.flatten ++ v

theorem Straddles.cons {f : List α} (h : Straddles part fragments) :
    Straddles part (f :: fragments) := by
  obtain ⟨before, f', between, g, after, u, v, rfl, hrest⟩ := h
  exact ⟨f :: before, f', between, g, after, u, v, rfl, hrest⟩

/-- What fragments put together begin with ends in one of them. -/
theorem exists_of_prefix_flatten (hne : part ≠ []) (h : part <+: fragments.flatten) :
    ∃ between g after v, fragments = between ++ g :: after ∧ v ≠ [] ∧ v <+: g ∧
      part = between.flatten ++ v := by
  induction fragments generalizing part with
  | nil => exact absurd (List.prefix_nil.1 h) hne
  | cons f fragments ih =>
    obtain ⟨tail, htail⟩ := h
    rw [List.flatten_cons, List.append_eq_append_iff] at htail
    rcases htail with ⟨rest, rfl, -⟩ | ⟨v, rfl, hv⟩
    · exact ⟨[], part ++ rest, fragments, part, rfl, hne, List.prefix_append _ _, rfl⟩
    · by_cases hnil : v = []
      · have hf : f ≠ [] := by simpa [hnil] using hne
        exact ⟨[], f, fragments, f, rfl, hf, List.prefix_rfl, by rw [hnil, List.append_nil]; rfl⟩
      · obtain ⟨between, g, after, w, rfl, hw, hwg, rfl⟩ := ih hnil ⟨tail, hv.symm⟩
        exact ⟨f :: between, g, after, w, rfl, hw, hwg, by simp⟩

/-- **What occurs in fragments put together** occurs in one of them, or straddles a border. -/
theorem infix_flatten_iff (hne : part ≠ []) : part <:+: fragments.flatten ↔
    (∃ f ∈ fragments, part <:+: f) ∨ Straddles part fragments := by
  constructor
  · intro h
    induction fragments with
    | nil => exact absurd (List.infix_nil.1 h) hne
    | cons f fragments ih =>
      rw [List.flatten_cons, List.infix_append_iff_ne_nil] at h
      rcases h with h | h | ⟨u, v, hu, hv, rfl, huf, hvf⟩
      · exact Or.inl ⟨f, List.mem_cons_self, h⟩
      · rcases ih h with ⟨g, hg, hpart⟩ | hstraddles
        · exact Or.inl ⟨g, List.mem_cons_of_mem _ hg, hpart⟩
        · exact Or.inr hstraddles.cons
      · obtain ⟨between, g, after, w, rfl, hw, hwg, rfl⟩ := exists_of_prefix_flatten hv hvf
        exact Or.inr ⟨[], f, between, g, after, u, w, rfl, hu, hw, huf, hwg, by simp⟩
  · rintro (⟨f, hf, hpart⟩ | ⟨before, f, between, g, after, u, v, rfl, -, -, huf, hvg, rfl⟩)
    · obtain ⟨before, after, rfl⟩ := List.append_of_mem hf
      obtain ⟨left, right, rfl⟩ := hpart
      exact ⟨before.flatten ++ left, right ++ after.flatten, by simp⟩
    · obtain ⟨f', rfl⟩ := huf
      obtain ⟨g', rfl⟩ := hvg
      exact ⟨before.flatten ++ f', g' ++ after.flatten, by simp⟩

end

theorem contains_iff {part text : List Char} : contains part text = true ↔ part <:+: text := by
  simp only [contains, List.any_eq_true, List.mem_tails, List.isPrefixOf_iff_prefix]
  constructor
  · rintro ⟨t, hsuffix, hprefix⟩
    exact hprefix.isInfix.trans hsuffix.isInfix
  · rintro ⟨left, right, rfl⟩
    exact ⟨part ++ right, ⟨left, by simp⟩, List.prefix_append _ _⟩

/-! ## What is searched -/

/-- `str.lower` does not look beyond a line. -/
structure LineCase extends LowerCase where
  lower_lines : ∀ a b, lower (a ++ "\n" ++ b) = lower a ++ "\n" ++ lower b

variable {case : LineCase} {scenario : ChecklistScenarioDefinition} {ruleTexts texts : List String}
  {keyword : String}

theorem filter_strip {text : String} : (strip text).toList.filter (fun c => !isNoise c) =
    text.toList.filter fun c => !isNoise c := by
  have hdrop (l : List Char) : (l.dropWhile isSpace).filter (fun c => !isNoise c) =
      l.filter fun c => !isNoise c := by
    induction l with
    | nil => rfl
    | cons c l ih =>
      by_cases hc : isSpace c
      · have hnoise : isNoise c = true := by simp [isNoise, hc]
        rw [List.dropWhile_cons_of_pos hc, ih, List.filter_cons_of_neg (by simp [hnoise])]
      · rw [List.dropWhile_cons_of_neg hc]
  rw [strip, String.toList_ofList, List.filter_reverse, hdrop, ← List.filter_reverse,
    List.reverse_reverse, hdrop]

/-- The characters of a text that normalization keeps. -/
theorem normalizeText_toList {case : LowerCase} {text : String} :
    (normalizeText case text).toList = (case.lower text).toList.filter fun c => !isNoise c := by
  rw [normalizeText, String.toList_ofList, filter_strip]

/-- **What is searched** are the normalized texts of the fragments, one after the other. -/
theorem normalizeText_joined :
    (normalizeText case.toLowerCase ("\n".intercalate ruleTexts)).toList =
      (ruleTexts.map fun text => (normalizeText case.toLowerCase text).toList).flatten := by
  simp only [normalizeText_toList]
  induction ruleTexts with
  | nil =>
    have hblank : isBlank (case.lower "") = true := by
      rw [case.isBlank_lower]
      rfl
    rw [String.intercalate_nil, List.map_nil, List.flatten_nil, List.filter_eq_nil_iff]
    intro c hc
    simp [isNoise, List.all_eq_true.1 hblank c hc]
  | cons text texts ih =>
    by_cases hnil : texts = []
    · simp [hnil]
    · rw [String.intercalate_cons_of_ne_nil hnil, case.lower_lines, String.toList_append,
        String.toList_append, List.filter_append, List.filter_append, ih, List.map_cons,
        List.flatten_cons]
      have hbreak : "\n".toList.filter (fun c => !isNoise c) = [] := by decide
      rw [hbreak, List.append_nil]

/-! ## The main theorem -/

/-- The keyword occurs in a single fragment. -/
def Stated (case : LowerCase) (ruleTexts : List String) (keyword : String) : Prop :=
  ∃ text ∈ ruleTexts,
    contains (normalizeText case keyword).toList (normalizeText case text).toList = true

instance {case : LowerCase} : DecidablePred (Stated case ruleTexts) :=
  fun _ => inferInstanceAs (Decidable (∃ text ∈ ruleTexts, _ = true))

/-- The rule pack of what single fragments state. -/
def statedRulePack (case : LowerCase) (scenario : ChecklistScenarioDefinition)
    (ruleTexts : List String) : ChecklistRulePack where
  scenario
  requirements := scenario.requirements.map fun requirement =>
    { definition := requirement
      matchedRuleKeywords := requirement.evidenceKeywords.filter fun keyword =>
        Stated case ruleTexts keyword }

/-- Every keyword has some text. -/
def Worded (case : LowerCase) (scenario : ChecklistScenarioDefinition) : Prop :=
  ∀ requirement ∈ scenario.requirements, ∀ keyword ∈ requirement.evidenceKeywords,
    normalizeText case keyword ≠ ""

/-- A keyword that straddles a border is also stated by a fragment. -/
def BordersApart (case : LowerCase) (scenario : ChecklistScenarioDefinition)
    (ruleTexts : List String) : Prop :=
  ∀ requirement ∈ scenario.requirements, ∀ keyword ∈ requirement.evidenceKeywords,
    Straddles (normalizeText case keyword).toList
        (ruleTexts.map fun text => (normalizeText case text).toList) →
      Stated case ruleTexts keyword

/-- A keyword is found where a fragment states it, and at borders. -/
theorem found_iff (hne : normalizeText case.toLowerCase keyword ≠ "") :
    contains (normalizeText case.toLowerCase keyword).toList
        (normalizeText case.toLowerCase ("\n".intercalate ruleTexts)).toList = true ↔
      Stated case.toLowerCase ruleTexts keyword ∨
        Straddles (normalizeText case.toLowerCase keyword).toList
          (ruleTexts.map fun text => (normalizeText case.toLowerCase text).toList) := by
  have hnil : (normalizeText case.toLowerCase keyword).toList ≠ [] := fun h =>
    hne (String.toList_inj.1 h)
  rw [contains_iff, normalizeText_joined, infix_flatten_iff hnil]
  refine or_congr_left ⟨?_, ?_⟩
  · rintro ⟨f, hf, hpart⟩
    obtain ⟨text, htext, rfl⟩ := List.mem_map.1 hf
    exact ⟨text, htext, contains_iff.2 hpart⟩
  · rintro ⟨text, htext, hpart⟩
    exact ⟨_, List.mem_map_of_mem htext, contains_iff.1 hpart⟩

theorem buildRulePack_eq_iff (hwords : Worded case.toLowerCase scenario) :
    buildRulePack case.toLowerCase scenario ruleTexts =
        statedRulePack case.toLowerCase scenario ruleTexts ↔
      BordersApart case.toLowerCase scenario ruleTexts := by
  simp only [buildRulePack, statedRulePack, ChecklistRulePack.mk.injEq, true_and,
    List.map_inj_left, ChecklistRequirementEvidence.mk.injEq]
  refine forall₂_congr fun requirement hrequirement => ?_
  constructor
  · intro h keyword hkeyword hstraddles
    have hfound : keyword ∈ requirement.evidenceKeywords.filter fun keyword =>
        contains (normalizeText case.toLowerCase keyword).toList
          (normalizeText case.toLowerCase ("\n".intercalate ruleTexts)).toList := by
      refine List.mem_filter.2 ⟨hkeyword, ?_⟩
      exact (found_iff (hwords requirement hrequirement keyword hkeyword)).2 (Or.inr hstraddles)
    rw [h] at hfound
    exact of_decide_eq_true (List.mem_filter.1 hfound).2
  · intro h
    refine List.filter_congr fun keyword hkeyword => ?_
    rw [Bool.eq_iff_iff, decide_eq_true_eq,
      found_iff (hwords requirement hrequirement keyword hkeyword)]
    exact or_iff_left_of_imp fun hstraddles => h keyword hkeyword hstraddles

theorem statedRulePack_perm {case : LowerCase} (h : texts.Perm ruleTexts) :
    statedRulePack case scenario texts = statedRulePack case scenario ruleTexts := by
  have hstated (keyword : String) : Stated case texts keyword ↔ Stated case ruleTexts keyword :=
    exists_congr fun text => and_congr_left fun _ => h.mem_iff
  unfold statedRulePack
  simp only [hstated]

/-- **Rule packs.** The keywords found are those that single fragments state, and the order of the
fragments does not matter, exactly when in no order a keyword is only made by a border. -/
theorem rule_pack_iff (case : LineCase) (scenario : ChecklistScenarioDefinition)
    (ruleTexts : List String) (hwords : Worded case.toLowerCase scenario) :
    (buildRulePack case.toLowerCase scenario ruleTexts =
        statedRulePack case.toLowerCase scenario ruleTexts ∧
      ∀ texts, texts.Perm ruleTexts → buildRulePack case.toLowerCase scenario texts =
        buildRulePack case.toLowerCase scenario ruleTexts) ↔
    ∀ texts, texts.Perm ruleTexts → BordersApart case.toLowerCase scenario texts := by
  constructor
  · rintro ⟨hstated, hperm⟩ texts htexts
    refine (buildRulePack_eq_iff hwords).1 ?_
    rw [hperm texts htexts, hstated, statedRulePack_perm htexts]
  · intro h
    have hstated {texts : List String} (htexts : texts.Perm ruleTexts) :
        buildRulePack case.toLowerCase scenario texts =
          statedRulePack case.toLowerCase scenario texts :=
      (buildRulePack_eq_iff hwords).2 (h texts htexts)
    refine ⟨hstated (List.Perm.refl _), fun texts htexts => ?_⟩
    rw [hstated htexts, hstated (List.Perm.refl _), statedRulePack_perm htexts]

/-! ## Two fragments -/

def asciiLines : LineCase where
  toLowerCase := asciiCase
  lower_lines a b := by
    have hbreak : lowerChar '\n' = '\n' := by decide
    rw [← String.toList_inj]
    simp [asciiCase, hbreak]

def licenceScenario : ChecklistScenarioDefinition where
  scenarioCode := "s"
  scenarioName := "s"
  requirements := [licence]

theorem worded_licenceScenario : Worded asciiLines.toLowerCase licenceScenario := by
  intro requirement hrequirement keyword hkeyword
  rw [List.mem_singleton.1 hrequirement] at hkeyword
  rw [List.mem_singleton.1 hkeyword]
  decide +kernel

theorem rule_pack_iff_licence :
    buildRulePack asciiLines.toLowerCase licenceScenario ["须交营业执照。"] =
      statedRulePack asciiLines.toLowerCase licenceScenario ["须交营业执照。"] := by
  refine ((rule_pack_iff asciiLines licenceScenario ["须交营业执照。"]
    worded_licenceScenario).2 fun texts htexts => ?_).1
  rw [List.perm_singleton.1 htexts]
  intro requirement hrequirement keyword hkeyword _
  rw [List.mem_singleton.1 hrequirement] at hkeyword
  rw [List.mem_singleton.1 hkeyword]
  decide +kernel

theorem border_states : ¬∀ (case : LineCase) (scenario : ChecklistScenarioDefinition)
    (ruleTexts : List String), Worded case.toLowerCase scenario →
      buildRulePack case.toLowerCase scenario ruleTexts =
          statedRulePack case.toLowerCase scenario ruleTexts ∧
        ∀ texts, texts.Perm ruleTexts → buildRulePack case.toLowerCase scenario texts =
          buildRulePack case.toLowerCase scenario ruleTexts := by
  intro h
  have hsame := (h asciiLines licenceScenario ["按期营业。", "执照挂墙。"] worded_licenceScenario).1
  have hkeywords := congrArg (fun pack : ChecklistRulePack =>
    pack.requirements.map ChecklistRequirementEvidence.matchedRuleKeywords) hsame
  revert hkeywords
  decide +kernel

end GoAgent.Checklist
