import GoAgent.Foundation.Json

/-!
# What the tender agent exchanges with the model

The structured results of the model, and the JSON text they are measured by.
-/

namespace GoAgent.Tender

open GoAgent.Foundation

/-- `Field(min_length=1)` -/
abbrev Text := { s : String // s ≠ "" }

/-- `Field(ge=1)` -/
abbrev PageNo := { n : Nat // 1 ≤ n }

inductive PackageType where
  | singleVolume
  | multiVolume
  | uncertain
  deriving DecidableEq

def PackageType.value : PackageType → String
  | singleVolume => "single_volume"
  | multiVolume => "multi_volume"
  | uncertain => "uncertain"

inductive AnalysisStatus where
  | completed
  | needsReview
  deriving DecidableEq

def AnalysisStatus.value : AnalysisStatus → String
  | completed => "completed"
  | needsReview => "needs_review"

inductive RequirementKind where
  | composition
  | «section»
  | form
  | table
  | attachment
  | submission
  | placeholder
  | risk
  deriving DecidableEq

def RequirementKind.value : RequirementKind → String
  | composition => "composition"
  | «section» => "section"
  | form => "form"
  | table => "table"
  | attachment => "attachment"
  | submission => "submission"
  | placeholder => "placeholder"
  | risk => "risk"

structure TenderSourceEvidence where
  evidenceId : Text
  location : Text
  quote : Text
  pageNo : Option PageNo := none
  sectionTitle : Option String := none
  deriving DecidableEq

structure TenderRequirement where
  requirementId : Text
  title : Text
  kind : RequirementKind
  required : Bool := true
  outputSlug : Option String := none
  evidenceRefs : List String := []
  notes : List String := []
  deriving DecidableEq

structure TenderOutputPlan where
  name : Text
  slug : Text
  documentLabel : Text
  purpose : Option String := none
  sectionTitles : List String := []
  requirementRefs : List String := []
  evidenceRefs : List String := []
  sourceStartBlockId : Option Text := none
  sourceEndBlockId : Option Text := none
  deriving DecidableEq

/-- The structured analysis of one tender document. -/
structure TenderAnalysis where
  status : AnalysisStatus
  packageType : PackageType
  summary : Text
  formatStartBlockId : Option Text := none
  formatEndBlockId : Option Text := none
  keyRequirements : List TenderRequirement := []
  outputs : List TenderOutputPlan := []
  evidence : List TenderSourceEvidence := []
  uncertainties : List String := []
  risks : List String := []
  deriving DecidableEq

structure TenderChunkOutputCandidate where
  label : Text
  purpose : Option String := none
  sectionTitles : List String := []
  evidenceRefs : List String := []
  deriving DecidableEq

/-- The local analysis of one chunk. -/
structure TenderChunkAnalysis where
  chunkId : Text
  requirements : List TenderRequirement := []
  outputCandidates : List TenderChunkOutputCandidate := []
  submissionRules : List String := []
  evidence : List TenderSourceEvidence := []
  uncertainties : List String := []
  coverageComplete : Bool := true
  deriving DecidableEq

/-- Budgets of one request. The settings they come from admit no negative number. -/
structure TenderAnalysisBudget where
  mergeInputChars : Nat := 18000
  maxOutputChars : Nat := 16000
  maxMergeItems : Nat := 8
  maxLlmCalls : Nat := 160
  maxRetries : Nat := 1
  maxTotalSeconds : Int := 300

structure TenderChunk where
  chunkId : String
  evidenceIds : List String

/-! ## `model_dump(mode="json")` -/

def dumpText (s : Text) : Json := .str s.1

def dumpTexts (l : List String) : Json := .arr (l.map .str)

def dumpOptional {α : Type} (dump : α → Json) : Option α → Json
  | none => .null
  | some a => dump a

def TenderSourceEvidence.modelDump (e : TenderSourceEvidence) : Json :=
  .obj [("evidence_id", dumpText e.evidenceId), ("location", dumpText e.location),
    ("quote", dumpText e.quote), ("page_no", dumpOptional (fun n => .int n.1) e.pageNo),
    ("section_title", dumpOptional .str e.sectionTitle)]

def TenderRequirement.modelDump (r : TenderRequirement) : Json :=
  .obj [("requirement_id", dumpText r.requirementId), ("title", dumpText r.title),
    ("kind", .str r.kind.value), ("required", .bool r.required),
    ("output_slug", dumpOptional .str r.outputSlug), ("evidence_refs", dumpTexts r.evidenceRefs),
    ("notes", dumpTexts r.notes)]

def TenderOutputPlan.modelDump (o : TenderOutputPlan) : Json :=
  .obj [("name", dumpText o.name), ("slug", dumpText o.slug),
    ("document_label", dumpText o.documentLabel), ("purpose", dumpOptional .str o.purpose),
    ("section_titles", dumpTexts o.sectionTitles),
    ("requirement_refs", dumpTexts o.requirementRefs),
    ("evidence_refs", dumpTexts o.evidenceRefs),
    ("source_start_block_id", dumpOptional dumpText o.sourceStartBlockId),
    ("source_end_block_id", dumpOptional dumpText o.sourceEndBlockId)]

def TenderAnalysis.modelDump (a : TenderAnalysis) : Json :=
  .obj [("status", .str a.status.value), ("package_type", .str a.packageType.value),
    ("summary", dumpText a.summary),
    ("format_start_block_id", dumpOptional dumpText a.formatStartBlockId),
    ("format_end_block_id", dumpOptional dumpText a.formatEndBlockId),
    ("key_requirements", .arr (a.keyRequirements.map TenderRequirement.modelDump)),
    ("outputs", .arr (a.outputs.map TenderOutputPlan.modelDump)),
    ("evidence", .arr (a.evidence.map TenderSourceEvidence.modelDump)),
    ("uncertainties", dumpTexts a.uncertainties), ("risks", dumpTexts a.risks)]

def TenderChunkOutputCandidate.modelDump (c : TenderChunkOutputCandidate) : Json :=
  .obj [("label", dumpText c.label), ("purpose", dumpOptional .str c.purpose),
    ("section_titles", dumpTexts c.sectionTitles), ("evidence_refs", dumpTexts c.evidenceRefs)]

def TenderChunkAnalysis.modelDump (c : TenderChunkAnalysis) : Json :=
  .obj [("chunk_id", dumpText c.chunkId),
    ("requirements", .arr (c.requirements.map TenderRequirement.modelDump)),
    ("output_candidates", .arr (c.outputCandidates.map TenderChunkOutputCandidate.modelDump)),
    ("submission_rules", dumpTexts c.submissionRules),
    ("evidence", .arr (c.evidence.map TenderSourceEvidence.modelDump)),
    ("uncertainties", dumpTexts c.uncertainties), ("coverage_complete", .bool c.coverageComplete)]

/-- `len(json.dumps(…, ensure_ascii=False))` -/
def jsonChars (j : Json) : Nat := (j.dumps .unicode).length

end GoAgent.Tender
