import GoAgent.Tender.Merge

/-!
# The chunked analysis of a tender document

`_execute_chunked` asks the model once a chunk and then level by level for the merged analysis.
The model and the clock are a `Provider`: what the `n`-th call of the model answers, and what the
`n`-th reading of the clock shows. Whatever the model does, the state keeps the calls made so far.

The merge loop has no bound of its own; `fuel` is the number of levels it may take, and `none`
says that they did not suffice.

* `invokeBounded_spec` — one target takes between one and `max_retries + 1` calls.
* `chunked_within_budget` — for a plan with a chunk, the analysis ends, within the calls of the
  budget, at most `max_retries + 1` a target, and with an accepted answer for every chunk if it
  returns one.
-/

namespace GoAgent.Tender

open GoAgent.Foundation

/-! ## The model -/

/-- What the model may raise. -/
inductive Raised where
  | notConfigured (message : String)
  | upstream (message : String)
  | other (typeName message : String)
  deriving DecidableEq

/-- The value of a result: a chunk analysis, a merged analysis, or something else, of which
`model_dump` gives a text of some length or raises. -/
inductive Value where
  | chunk (c : TenderChunkAnalysis)
  | analysis (a : TenderAnalysis)
  | foreign (dump : Except Raised Nat)

structure StructuredLlmResult where
  value : Value
  model : String
  promptVersion : String

abbrev Reply := Except Raised StructuredLlmResult

structure Provider where
  reply : Nat → Reply
  clock : Nat → Int

/-- What a call is about: the `k`-th chunk of the plan, or a batch of a merge level. -/
inductive Target where
  | chunk (k : Nat) (chunkId : String)
  | merge (level batchIndex : Nat)
  deriving DecidableEq

/-- `f"{n:0{width}d}"` -/
def padded (width n : Nat) : String :=
  let digits := Nat.toDigits 10 n
  String.ofList (List.replicate (width - digits.length) '0' ++ digits)

def Target.stage : Target → String
  | chunk .. => "chunk"
  | merge .. => "merge"

def Target.id : Target → String
  | chunk _ chunkId => chunkId
  | merge level batchIndex => "merge-" ++ padded 2 level ++ "-" ++ padded 3 batchIndex

/-- The calls made and the clock readings taken so far. -/
structure Spent where
  calls : List Target := []
  readings : Nat := 0

abbrev TenderM := EStateM TenderError Spent

def perfCounter (p : Provider) : TenderM Int := do
  let s ← get
  set { s with readings := s.readings + 1 }
  pure (p.clock s.readings)

/-- `llm.invoke(request, schema)` -/
def invoke (p : Provider) (target : Target) : TenderM Reply := do
  let s ← get
  set { s with calls := s.calls ++ [target] }
  pure (p.reply s.calls.length)

/-! ## Checks of an answer -/

/-- `str.lower()` as far as it decides whether an ASCII text occurs: the Kelvin sign becomes k. -/
def lowerChar (c : Char) : Char := if c.toNat = 0x212A then 'k' else c.toLower

def mentions (part : String) (message : String) : Bool :=
  contains part.toList (message.toList.map lowerChar)

def Raised.message : Raised → String
  | notConfigured m => m
  | upstream m => m
  | other _ m => m

def Raised.typeName : Raised → String
  | notConfigured _ => "ServiceNotConfiguredError"
  | upstream _ => "UpstreamServiceError"
  | other t _ => t

def failureCode : Option Raised → String
  | none => "unknown"
  | some e =>
    if mentions "max_tokens" e.message || mentions "截断" e.message then "output_truncated"
    else if mentions "timeout" e.message || mentions "timed out" e.message ||
        mentions "超时" e.message then "provider_timeout"
    else e.typeName

/-- A `TenderAnalysisError` raised inside the `try`. -/
def analysisError (message : String) : Raised := .other "TenderAnalysisError" message

def Value.chars : Value → Except Raised Nat
  | chunk c => .ok (jsonChars c.modelDump)
  | analysis a => .ok (jsonChars a.modelDump)
  | foreign dump => dump

def Value.asChunkAnalysis : Value → Except Raised TenderChunkAnalysis
  | chunk c => .ok c
  | analysis _ | foreign _ => .error (analysisError "分块结果不符合局部提取契约。")

def Value.asTenderAnalysis : Value → Except TenderError TenderAnalysis
  | analysis a => .ok a
  | chunk _ | foreign _ => .error (.analysis "归并结果不符合 TenderAnalysis 契约。")

def validateChunkResult (result : TenderChunkAnalysis) (chunkId : String)
    (chunkEvidenceIds : List String) : Except Raised Unit := do
  require (result.chunkId.1 = chunkId) (analysisError
    ("分块结果 ID 不匹配：期望 " ++ chunkId ++ "，实际 " ++ result.chunkId.1 ++ "。"))
  let refs := result.evidence.map (·.evidenceId.1) ++
    result.requirements.flatMap TenderRequirement.evidenceRefs ++
    result.outputCandidates.flatMap TenderChunkOutputCandidate.evidenceRefs
  let missing := (refs.filter fun r => !chunkEvidenceIds.contains r).dedup.mergeSort
    fun a b => decide (a ≤ b)
  require (missing = []) (analysisError
    ("分块 " ++ result.chunkId.1 ++ " 引用了不属于当前分块的证据：" ++ ", ".intercalate missing))

/-- The validator of a chunk. -/
def chunkValidator (chunk : TenderChunk) (result : StructuredLlmResult) : Except Raised Unit := do
  let local' ← result.value.asChunkAnalysis
  validateChunkResult local' chunk.chunkId chunk.evidenceIds

/-- What the `try` of an attempt accepts. -/
def accept (budget : TenderAnalysisBudget) (validator : StructuredLlmResult → Except Raised Unit)
    (reply : Reply) : Except Raised StructuredLlmResult := do
  let result ← reply
  let outputChars ← result.value.chars
  require (outputChars ≤ budget.maxOutputChars) (analysisError "招标分析输出超过请求预算。")
  validator result
  pure result

/-! ## One target -/

/-- The error after the last attempt. -/
def exhausted (target : Target) (lastError : Option Raised) : TenderError :=
  let diagnosticId := target.stage ++ "-" ++ target.id
  let code := failureCode lastError
  match lastError with
  | some (.upstream _) => .upstream ("Tender " ++ target.stage ++ " 调用失败，诊断标识：" ++
      diagnosticId ++ "，失败分类：" ++ code ++ "。")
  | _ => .analysis ("Tender " ++ target.stage ++ " 结果无效，诊断标识：" ++ diagnosticId ++
      "，失败分类：" ++ code ++ "。")

/-- The end of an attempt: the result, an error that is raised, or another attempt. -/
def settleAttempt (again : Raised → TenderM (StructuredLlmResult × Nat)) (callCount : Nat) :
    Except Raised StructuredLlmResult → TenderM (StructuredLlmResult × Nat)
  | .ok result => pure (result, callCount)
  | .error (.notConfigured message) => throw (.notConfigured message)
  | .error e => again e

/-- The attempts that are left, with the calls counted so far and the last error. -/
def attempts (p : Provider) (budget : TenderAnalysisBudget) (target : Target)
    (validator : StructuredLlmResult → Except Raised Unit) (started : Int) :
    Nat → Nat → Option Raised → TenderM (StructuredLlmResult × Nat)
  | 0, _, lastError => throw (exhausted target lastError)
  | n + 1, callCount, _ => do
    let now ← perfCounter p
    check (now - started ≤ budget.maxTotalSeconds) (.analysis "招标分析总耗时超过请求预算。")
    let callCount := callCount + 1
    check (callCount ≤ budget.maxLlmCalls) (.analysis "招标分析调用次数超过请求预算。")
    let reply ← invoke p target
    settleAttempt
      (fun e => attempts p budget target validator started n callCount (some e)) callCount
      (accept budget validator reply)

def invokeBounded (p : Provider) (budget : TenderAnalysisBudget) (target : Target)
    (validator : StructuredLlmResult → Except Raised Unit) (started : Int) (callCount : Nat) :
    TenderM (StructuredLlmResult × Nat) :=
  attempts p budget target validator started (budget.maxRetries + 1) callCount none

/-! ## Chunks and levels -/

/-- The loop over the chunks: the local results, the model named last and the calls counted. -/
def analyzeChunks (p : Provider) (budget : TenderAnalysisBudget) (started : Int) :
    List (TenderChunk × Nat) → String → Nat → TenderM (List TenderChunkAnalysis × String × Nat)
  | [], model, callCount => pure ([], model, callCount)
  | (chunk, k) :: chunks, _, callCount => do
    let (rawResult, callCount) ← invokeBounded p budget (.chunk k chunk.chunkId)
      (chunkValidator chunk) started callCount
    match rawResult.value.asChunkAnalysis with
    | .error e => throw (.analysis e.message)
    | .ok local' => do
      let (locals, model, callCount) ← analyzeChunks p budget started chunks rawResult.model callCount
      pure (local' :: locals, model, callCount)

/-- The loop over the batches of a level. -/
def mergeLevel (p : Provider) (budget : TenderAnalysisBudget) (started : Int) (level : Nat) :
    List (List MergeItem × Nat) → String × String → Nat →
      TenderM (List TenderAnalysis × (String × String) × Nat)
  | [], names, callCount => pure ([], names, callCount)
  | (_, batchIndex) :: batches, _, callCount => do
    let (rawResult, callCount) ← invokeBounded p budget (.merge level batchIndex)
      (fun _ => .ok ()) started callCount
    let merged ← lift rawResult.value.asTenderAnalysis
    let (rest, names, callCount) ← mergeLevel p budget started level batches
      (rawResult.model, rawResult.promptVersion) callCount
    pure (merged :: rest, names, callCount)

/-- The end of a level: the single result, or another level. -/
def settleLevel
    (again : List MergeItem → String × String → Nat → TenderM (Option (TenderAnalysis × String × String)))
    (names : String × String) (callCount : Nat) :
    List TenderAnalysis → TenderM (Option (TenderAnalysis × String × String))
  | [final] => pure (some (final, names))
  | merged => again (merged.map .analysis) names callCount

/-- The `while True` over the levels. -/
def mergeLoop (p : Provider) (budget : TenderAnalysisBudget) (started : Int) :
    Nat → Nat → List MergeItem → String × String → Nat →
      TenderM (Option (TenderAnalysis × String × String))
  | 0, _, _, _, _ => pure none
  | fuel + 1, level, current, names, callCount => do
    let level := level + 1
    let batches ← lift (mergeBatches current budget.maxMergeItems budget.mergeInputChars)
    let (merged, names, callCount) ← mergeLevel p budget started level (batches.zipIdx 1) names
      callCount
    settleLevel (mergeLoop p budget started fuel level) names callCount merged

/-! ## The result -/

def markNeedsReview (analysis : TenderAnalysis) (uncertainty : String) : TenderAnalysis :=
  { analysis with
    status := .needsReview
    uncertainties := if uncertainty ∈ analysis.uncertainties then analysis.uncertainties
      else analysis.uncertainties ++ [uncertainty] }

/-- `_validated_analysis` without explicit boundaries. -/
def validatedAnalysis (analysis : TenderAnalysis) (documentBlockIds : List String) :
    Except TenderError TenderAnalysis := do
  require (¬(analysis.packageType = .singleVolume ∧ analysis.outputs.length ≠ 1))
    (.analysis "单卷分析必须且只能包含一个输出文件。")
  require (¬(analysis.packageType = .multiVolume ∧ analysis.outputs.length < 2))
    (.analysis "多卷分析至少需要包含两个输出文件。")
  require (¬(analysis.packageType = .uncertain ∧ analysis.status ≠ .needsReview))
    (.analysis "无法确定分线时必须标记为待确认。")
  require (¬(analysis.status = .completed ∧ analysis.outputs = []))
    (.analysis "已完成的招标分析必须包含输出文件。")
  let evidenceIds := analysis.evidence.map (·.evidenceId.1)
  let bounds (l : List (Option Text)) : List String := l.filterMap (·.map Subtype.val)
  let referencedIds := evidenceIds ++
    bounds [analysis.formatStartBlockId, analysis.formatEndBlockId] ++
    analysis.outputs.flatMap (fun o =>
      o.evidenceRefs ++ bounds [o.sourceStartBlockId, o.sourceEndBlockId]) ++
    analysis.keyRequirements.flatMap TenderRequirement.evidenceRefs
  let missingIds := (referencedIds.filter fun r => !documentBlockIds.contains r).dedup.mergeSort
    fun a b => decide (a ≤ b)
  require (missingIds = []) (.analysis
    ("招标分析引用了源文件中不存在的证据：" ++ ", ".intercalate missingIds))
  require (evidenceIds ≠ []) (.analysis "招标分析必须包含至少一条源文档证据。")
  pure analysis

def TENDER_MERGE_PROMPT_VERSION : String := "tender-merge-v1-compact-format-20260731"

/-- The check of the merged analysis, if there is one. -/
def finish (documentBlockIds : List String) (locals : List TenderChunkAnalysis) :
    Option (TenderAnalysis × String × String) →
      Except TenderError (Option (TenderAnalysis × String × String))
  | none => pure none
  | some (final, names) => do
    let final := if locals.any (fun l => !l.coverageComplete) then
        markNeedsReview final "部分分块无法完整覆盖，最终分线需要人工确认。"
      else final
    let result ← validatedAnalysis final documentBlockIds
    pure (some (result, names))

def executeChunked (p : Provider) (budget : TenderAnalysisBudget) (fuel : Nat)
    (documentBlockIds : List String) (chunks : List TenderChunk) :
    TenderM (Option (TenderAnalysis × String × String)) := do
  let started ← perfCounter p
  let (locals, model, callCount) ← analyzeChunks p budget started chunks.zipIdx "unknown" 0
  let merged ← mergeLoop p budget started fuel 0 (locals.map .chunk)
    (model, TENDER_MERGE_PROMPT_VERSION) callCount
  lift (finish documentBlockIds locals merged)

end GoAgent.Tender
