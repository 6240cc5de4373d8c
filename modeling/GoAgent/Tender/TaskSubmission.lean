import GoAgent.Attachments.Access
import GoAgent.Foundation.JsonRoundTrip
import GoAgent.Foundation.Utf8

/-!
# Tender tasks from submission to execution

A tender call that runs as a task is reduced to a snapshot: the metadata of its attachment, the focus
and the conversation. The snapshot goes through the constructors of the bridge and the trusted
submission as display metadata, is stored with the task, and is read from there by the executor.
Every constructor strips the values; the provider of the snapshot does not, and the reader of the
attachment compares with the attachment's own.

* `normalizeMetadata_eq` — what a constructor makes of metadata.
* `Submits.traced` — every stored task is one that was made of a snapshot.
* `rebuilt_iff` — the executor rebuilds the snapshot, and the reader takes it, exactly if the file
  name and the media type of the attachment have no white space at their ends.
-/

namespace GoAgent.Tender.Submission

open GoAgent.Foundation GoAgent.Attachments.Filesystem

/-! ## Snapshots -/

/-- A value of `inputs`, where a text is asked for. -/
inductive InputValue where
  | absent
  | text (value : String)
  | other

/-- An identifier of a call, as its validator leaves it. -/
def IsIdentifier (value : String) : Prop := isBlank value = false ∧ strip value = value

/-- `StructuredAgentCall`; the source document is `none` unless it is a resolved attachment. -/
structure StructuredAgentCall where
  callId : String
  capabilityCode : String
  conversationId : Option String := none
  sourceDocument : Option AttachmentRef := none
  userFocus : InputValue := .absent
  conversation : ∀ c ∈ conversationId, IsIdentifier c
  checked : ∀ reference ∈ sourceDocument, reference.checked = .ok reference

structure TenderTaskInput where
  attachmentId : String
  fileName : String
  mediaType : String
  sha256 : String
  userFocus : Option String := none
  conversationId : Option String := none
  deriving DecidableEq

inductive SubmissionError where
  | value (message : String)
  | policy (message : String)
  | principal (message : String)
  | conflict (message : String)
  | database

/-- `_require_text`, of the two modules that have one. -/
def requireText (raised : String → SubmissionError) (value label : String) :
    Except SubmissionError String :=
  if isBlank value then .error (raised (label ++ "必须是非空字符串。")) else .ok (strip value)

/-- A dictionary whose keys and values are made texts, each key once `check` lets it pass. -/
def normalizeMetadata (raised : String → SubmissionError)
    (check : String → Except SubmissionError Unit) :
    List (String × String) → List (String × String) → Except SubmissionError (List (String × String))
  | normalized, [] => .ok normalized
  | normalized, (key, value) :: rest => do
    let fieldName ← requireText raised key "展示字段名"
    check fieldName
    let text ← requireText raised value "展示字段值"
    normalizeMetadata raised check (assign Prod.fst fieldName (fieldName, text) normalized) rest

/-- `AgentTaskInputSnapshot` -/
structure AgentTaskInputSnapshot where
  inputFingerprint : String
  snapshotReference : Option String
  displayMetadata : List (String × String)

/-- The constructor, with `__post_init__`. -/
def AgentTaskInputSnapshot.make (inputFingerprint : String) (snapshotReference : Option String)
    (displayMetadata : List (String × String)) : Except SubmissionError AgentTaskInputSnapshot := do
  let inputFingerprint ← requireText .value inputFingerprint "输入指纹"
  let snapshotReference ← snapshotReference.mapM fun reference =>
    requireText .value reference "快照引用"
  let displayMetadata ← normalizeMetadata .value (fun _ => .ok ()) [] displayMetadata
  .ok { inputFingerprint, snapshotReference, displayMetadata }

/-- The snapshot of a call, in `TenderTaskInputSnapshotProvider.snapshot`. -/
def tenderInput (call : StructuredAgentCall) : Except SubmissionError TenderTaskInput :=
  match call.sourceDocument with
  | none => .error (.value "异步 Tender 必须使用已解析附件。")
  | some reference =>
    let snapshot (userFocus : Option String) : TenderTaskInput :=
      { attachmentId := reference.attachmentId
        fileName := reference.fileName
        mediaType := reference.mediaType
        sha256 := reference.sha256
        userFocus
        conversationId := call.conversationId }
    match call.userFocus with
    | .absent => .ok (snapshot none)
    | .text focus => .ok (snapshot (if strip focus = "" then none else some (strip focus)))
    | .other => .error (.value "用户关注点格式无效。")

/-- `json.dumps(…, ensure_ascii=False, sort_keys=True, separators=(",", ":"))` -/
def canonical (snapshot : TenderTaskInput) : List Char :=
  let optional (value : Option String) : Json := (value.map Json.str).getD .null
  (Json.obj
    [("attachment_id", .str snapshot.attachmentId),
      ("conversation_id", optional snapshot.conversationId),
      ("file_name", .str snapshot.fileName),
      ("media_type", .str snapshot.mediaType),
      ("sha256", .str snapshot.sha256),
      ("user_focus", optional snapshot.userFocus)]).dumps
    { item := [',']
      key := [':']
      ensureAscii := false }

/-- The display metadata of a snapshot. -/
def metadataOf (snapshot : TenderTaskInput) : List (String × String) :=
  [("snapshot_reference", snapshot.attachmentId), ("file_name", snapshot.fileName),
      ("media_type", snapshot.mediaType), ("sha256", snapshot.sha256)] ++
    (snapshot.userFocus.map fun focus => ("user_focus", focus)).toList ++
    (snapshot.conversationId.map fun conversation => ("conversation_id", conversation)).toList

/-- `TenderTaskInputSnapshotProvider.snapshot` -/
def snapshotOf (host : Host) (call : StructuredAgentCall) :
    Except SubmissionError AgentTaskInputSnapshot := do
  let snapshot ← tenderInput call
  AgentTaskInputSnapshot.make (host.sha256 (utf8Encode (canonical snapshot))) (some snapshot.attachmentId)
    (metadataOf snapshot)

/-! ## Submission -/

structure RequestPrincipal where
  subject : String
  authenticated : Bool

structure AgentTaskProfile where
  capabilityCode : String
  taskType : String
  maxAttempts : Nat
  allowManualRetry : Bool := true
  displayMetadataFields : List String

/-- The capability of a command. -/
structure Capability where
  code : String
  isAgent : Bool
  enabled : Bool

structure AgentExecutionCommand where
  principal : RequestPrincipal
  capability : Capability
  call : StructuredAgentCall

/-- What a `Task` is created with. -/
structure Task where
  taskType : String
  ownerSubject : String
  idempotencyKey : String
  inputFingerprint : String
  maxAttempts : Nat
  displayMetadata : List (String × String)
  allowManualRetry : Bool

/-- `_SAFE_CALL_ID` -/
def isSafeCallId (callId : String) : Bool :=
  let isFirst (c : Char) : Bool := isAlnum c
  match callId.toList with
  | [] => false
  | first :: rest => isFirst first && rest.length ≤ 127 &&
      rest.all fun c => isFirst c || c == '.' || c == '_' || c == ':' || c == '-'

/-- `_idempotency_key` -/
def idempotencyKey (capabilityCode callId : String) : Except SubmissionError String :=
  if isSafeCallId callId then .ok ("agent:" ++ capabilityCode ++ ":" ++ callId)
  else .error (.value "调用关联标识包含不安全字符。")

/-- `_validate_snapshot` -/
def validateSnapshot (snapshot : AgentTaskInputSnapshot) (profile : AgentTaskProfile) :
    Except SubmissionError Unit := do
  require (∀ field ∈ snapshot.displayMetadata, field.1 ∈ profile.displayMetadataFields)
    (.value "快照展示字段超出服务端白名单。")
  require (snapshot.snapshotReference ≠ none → "snapshot_reference" ∈ profile.displayMetadataFields)
    (.value "快照引用未被服务端档案允许。")
  require (∀ reference ∈ snapshot.snapshotReference,
      ∀ shown ∈ lookup Prod.fst "snapshot_reference" snapshot.displayMetadata, shown.2 = reference)
    (.value "快照展示字段不能覆盖服务端快照引用。")

/-- The metadata that is submitted. -/
def submissionMetadata (snapshot : AgentTaskInputSnapshot) : List (String × String) :=
  match snapshot.snapshotReference with
  | none => snapshot.displayMetadata
  | some reference =>
    assign Prod.fst "snapshot_reference" ("snapshot_reference", reference) snapshot.displayMetadata

/-- `TrustedTaskSubmissionService.submit`, of the command it is given the parts of. -/
def submit (stores : Task → Bool) (profile : AgentTaskProfile) (principal : RequestPrincipal)
    (idempotencyKey inputFingerprint : String) (displayMetadata : List (String × String))
    (store : List Task) : Except SubmissionError (Task × List Task) := do
  let idempotencyKey ← requireText .policy idempotencyKey "幂等键"
  let inputFingerprint ← requireText .policy inputFingerprint "输入指纹"
  require (principal.authenticated = true) (.principal "只有已认证主体可以提交任务。")
  require (isBlank principal.subject = false) (.principal "可信主体必须包含非空 subject。")
  let displayMetadata ← normalizeMetadata .policy (fun fieldName =>
    require (fieldName ∈ profile.displayMetadataFields)
      (.policy "展示元数据包含当前提交档案未声明的字段。")) [] displayMetadata
  let task : Task :=
    { taskType := profile.taskType
      ownerSubject := strip principal.subject
      idempotencyKey
      inputFingerprint
      maxAttempts := profile.maxAttempts
      displayMetadata
      allowManualRetry := profile.allowManualRetry }
  -- `create_or_get_submission`
  match store.find? fun t => t.ownerSubject = task.ownerSubject ∧ t.taskType = task.taskType ∧
      t.idempotencyKey = task.idempotencyKey with
  | some persisted =>
    require (persisted.inputFingerprint = task.inputFingerprint)
      (.conflict "同一幂等键使用了不同的输入指纹。")
    .ok (persisted, store)
  | none =>
    require (stores task = true) .database
    .ok (task, store ++ [task])

/-- `AgentExecutionOutcome`; an accepted one names the task. -/
inductive Outcome where
  | accepted (task : Task)
  | failed (errorCode message : String) (retryable : Bool)

/-- The `except` clauses of the submission. -/
def SubmissionError.outcome : SubmissionError → Outcome
  | .conflict _ => .failed "TASK_IDEMPOTENCY_CONFLICT" "同一 Agent 调用使用了不同的任务输入。" false
  | .principal _ => .failed "TASK_SUBMISSION_PRINCIPAL_INVALID" "当前主体不能提交异步任务。" false
  | .policy _ => .failed "TASK_SUBMISSION_POLICY_INVALID" "异步任务提交不符合服务端策略。" false
  | .value _ | .database => .failed "TASK_SUBMISSION_FAILED" "异步任务暂时无法提交。" true

/-- What the first `try` block of `AgentTaskBridge.execute` prepares. -/
def prepare (host : Host) (call : StructuredAgentCall) (profile : AgentTaskProfile) :
    Except SubmissionError (String × String × List (String × String)) := do
  let snapshot ← snapshotOf host call
  validateSnapshot snapshot profile
  let key ← idempotencyKey call.capabilityCode call.callId
  .ok (key, snapshot.inputFingerprint, submissionMetadata snapshot)

/-- `AgentTaskBridge.execute`; `stores` says which rows the database takes. -/
def execute (host : Host) (stores : Task → Bool) (routes : List AgentTaskProfile)
    (command : AgentExecutionCommand) (store : List Task) : Outcome × List Task :=
  match routes.find? fun profile => profile.capabilityCode = command.capability.code with
  | none => (.failed "ASYNC_PROFILE_UNAVAILABLE" "当前 Agent 能力未配置异步任务档案。" false, store)
  | some profile =>
    if ¬(command.capability.isAgent = true ∧ command.capability.enabled = true ∧
        command.call.capabilityCode = profile.capabilityCode ∧
        command.capability.code = profile.capabilityCode) then
      (.failed "ASYNC_PROFILE_INVALID" "当前 Agent 能力的异步任务档案不可用。" false, store)
    else
      match prepare host command.call profile with
      | .error _ => (.failed "ASYNC_INPUT_INVALID" "异步 Agent 输入无法生成安全任务快照。" false, store)
      | .ok (key, fingerprint, metadata) =>
        match submit stores profile command.principal key fingerprint metadata store with
        | .error e => (e.outcome, store)
        | .ok (task, store') => (.accepted task, store')

/-! ## Execution -/

/-- `metadata.get(field)` -/
def fieldOf (metadata : List (String × String)) (name : String) : Option String :=
  (lookup Prod.fst name metadata).map Prod.snd

/-- `_snapshot_from_context` -/
def snapshotFromContext (metadata : List (String × String)) :
    Except SubmissionError TenderTaskInput := do
  require (∀ name ∈ ["snapshot_reference", "file_name", "media_type", "sha256"],
      (fieldOf metadata name).any (fun value => !isBlank value) = true)
    (.value "Tender Task 快照元数据不完整。")
  .ok
    { attachmentId := (fieldOf metadata "snapshot_reference").getD ""
      fileName := (fieldOf metadata "file_name").getD ""
      mediaType := (fieldOf metadata "media_type").getD ""
      sha256 := (fieldOf metadata "sha256").getD ""
      userFocus := fieldOf metadata "user_focus"
      conversationId := fieldOf metadata "conversation_id" }

/-- `AttachmentTenderTaskInputReader.read`, from what the storage answers. -/
def readInput (result : AttachmentReadResult) (snapshot : TenderTaskInput) :
    Except SubmissionError Attachments.Bytes :=
  match result.attachment, result.content with
  | some attachment, some content => do
    require (result.status = .available) (.value "Tender 输入附件不可用。")
    require (attachment.fileName = snapshot.fileName ∧ attachment.mediaType = snapshot.mediaType ∧
      attachment.sha256 = snapshot.sha256) (.value "Tender 输入附件校验失败。")
    .ok content
  | _, _ => .error (.value "Tender 输入附件不可用。")

/-! ## What the constructors make of metadata -/

section Metadata

variable {raised : String → SubmissionError} {check : String → Except SubmissionError Unit}
  {value label : String} {normalized entries result : List (String × String)}
  {snapshot other : TenderTaskInput}

theorem requireText_ok {text : String} :
    requireText raised value label = .ok text ↔ isBlank value = false ∧ text = strip value := by
  unfold requireText
  by_cases hblank : isBlank value = true
  · simp [hblank]
  · simp [hblank, eq_comm]

/-- Metadata whose values are stripped. -/
def stripped (entries : List (String × String)) : List (String × String) :=
  entries.map fun e => (e.1, strip e.2)

theorem keys_stripped : (stripped entries).map Prod.fst = entries.map Prod.fst := by
  unfold stripped
  rw [List.map_map]
  rfl

theorem stripped_stripped : stripped (stripped entries) = stripped entries := by
  unfold stripped
  rw [List.map_map]
  apply List.map_congr_left
  intro e _
  simp

/-- **A constructor strips the values of metadata**, if the keys are distinct and have no white space
at their ends. -/
theorem normalizeMetadata_eq (hclean : ∀ e ∈ entries, strip e.1 = e.1)
    (hkeys : ((normalized ++ entries).map Prod.fst).Nodup)
    (h : normalizeMetadata raised check normalized entries = .ok result) :
    result = normalized ++ stripped entries ∧ ∀ e ∈ entries, isBlank e.2 = false := by
  induction entries generalizing normalized with
  | nil =>
    obtain rfl := Except.ok.inj h
    exact ⟨(List.append_nil _).symm, fun e he => nomatch he⟩
  | cons e rest ih =>
    simp only [normalizeMetadata, except_bind_ok, requireText_ok, exists_unit] at h
    obtain ⟨_, ⟨-, rfl⟩, -, _, ⟨hblank, rfl⟩, h⟩ := h
    rw [hclean e List.mem_cons_self] at h
    have hnew : e.1 ∉ normalized.map Prod.fst := by
      rw [List.map_append, List.map_cons, List.nodup_append] at hkeys
      intro hmem
      exact hkeys.2.2 _ hmem _ List.mem_cons_self rfl
    rw [assign_of_notMem hnew] at h
    have hkeys' : (((normalized ++ [(e.1, strip e.2)]) ++ rest).map Prod.fst).Nodup := by
      rw [List.append_assoc, List.map_append]
      rw [List.map_append, List.map_cons] at hkeys
      exact hkeys
    obtain ⟨rfl, hrest⟩ := ih (fun e' he' => hclean e' (List.mem_cons_of_mem _ he')) hkeys' h
    refine ⟨?_, ?_⟩
    · rw [List.append_assoc]
      rfl
    · intro e' he'
      rcases List.mem_cons.1 he' with rfl | he'
      · exact hblank
      · exact hrest e' he'

theorem keys_metadataOf : ((metadataOf snapshot).map Prod.fst).Nodup ∧
    ∀ e ∈ metadataOf snapshot, strip e.1 = e.1 := by
  have hnames : (["snapshot_reference", "file_name", "media_type", "sha256", "user_focus",
      "conversation_id"] : List String).Nodup ∧ ∀ name ∈ ["snapshot_reference", "file_name",
        "media_type", "sha256", "user_focus", "conversation_id"], strip name = name := by
    decide +kernel
  have hsub : ((metadataOf snapshot).map Prod.fst).Sublist ["snapshot_reference", "file_name",
      "media_type", "sha256", "user_focus", "conversation_id"] := by
    unfold metadataOf
    cases snapshot.userFocus <;> cases snapshot.conversationId <;> simp
  refine ⟨hnames.1.sublist hsub, ?_⟩
  intro e he
  exact hnames.2 e.1 (hsub.subset (List.mem_map_of_mem he))

/-- The reference of the snapshot is assigned to what it is already. -/
theorem assign_reference : assign Prod.fst "snapshot_reference"
    ("snapshot_reference", strip snapshot.attachmentId) (stripped (metadataOf snapshot)) =
      stripped (metadataOf snapshot) := by
  have hkeys : ((stripped (metadataOf snapshot)).map Prod.fst).Nodup := by
    rw [keys_stripped]
    exact keys_metadataOf.1
  have hmem : ("snapshot_reference", strip snapshot.attachmentId) ∈
      stripped (metadataOf snapshot) := List.mem_cons_self
  exact assign_self hkeys hmem

/-- A snapshot whose values are stripped. -/
def TenderTaskInput.stripped (snapshot : TenderTaskInput) : TenderTaskInput where
  attachmentId := strip snapshot.attachmentId
  fileName := strip snapshot.fileName
  mediaType := strip snapshot.mediaType
  sha256 := strip snapshot.sha256
  userFocus := snapshot.userFocus.map strip
  conversationId := snapshot.conversationId.map strip

/-- What the executor rebuilds. -/
theorem snapshotFromContext_stripped
    (h : ∀ e ∈ metadataOf snapshot, isBlank e.2 = false) :
    snapshotFromContext (stripped (metadataOf snapshot)) = .ok snapshot.stripped := by
  have hreference := h ("snapshot_reference", snapshot.attachmentId) (by simp [metadataOf])
  have hname := h ("file_name", snapshot.fileName) (by simp [metadataOf])
  have hmedia := h ("media_type", snapshot.mediaType) (by simp [metadataOf])
  have hsha := h ("sha256", snapshot.sha256) (by simp [metadataOf])
  dsimp only at hreference hname hmedia hsha
  unfold snapshotFromContext TenderTaskInput.stripped
  cases hfocus : snapshot.userFocus <;> cases hconversation : snapshot.conversationId <;>
    simp [fieldOf, Submission.stripped, metadataOf, lookup, require, hfocus, hconversation,
      hreference, hname, hmedia, hsha]

end Metadata

/-! ## Stored tasks -/

section Stored

variable {host : Host} {stores : Task → Bool} {routes : List AgentTaskProfile}
  {profile : AgentTaskProfile} {command : AgentExecutionCommand}
  {commands : List AgentExecutionCommand} {call : StructuredAgentCall} {store store' : List Task}
  {task : Task} {snapshot other : TenderTaskInput}

/-- The fingerprint of a snapshot. -/
def fingerprint (host : Host) (snapshot : TenderTaskInput) : String :=
  host.sha256 (utf8Encode (canonical snapshot))

theorem strip_hexdigest {digest : String} (h : Attachments.isHexDigest digest = true) :
    strip digest = digest := by
  unfold Attachments.isHexDigest at h
  simp only [Bool.and_eq_true, List.all_eq_true] at h
  apply strip_eq_self
  intro c hc
  apply not_isSpace_of_isAlnum
  have hdigit := h.2 c hc
  simp only [Bool.or_eq_true, Bool.and_eq_true, decide_eq_true_eq] at hdigit
  simp only [isAlnum, isLower, isUpper, Bool.or_eq_true, Bool.and_eq_true, decide_eq_true_eq]
  rcases hdigit with (hdigit | hlow) | hup
  · exact Or.inr hdigit
  · exact Or.inl (Or.inl (by omega))
  · exact Or.inl (Or.inr (by omega))

theorem strip_fingerprint : strip (fingerprint host snapshot) = fingerprint host snapshot :=
  strip_hexdigest (host.hexdigest _)

/-- The task was made of the snapshot. -/
structure MadeOf (host : Host) (snapshot : TenderTaskInput) (task : Task) : Prop where
  fingerprint : task.inputFingerprint = fingerprint host snapshot
  metadata : task.displayMetadata = stripped (metadataOf snapshot)
  given : ∀ e ∈ metadataOf snapshot, isBlank e.2 = false

theorem snapshotOf_ok {made : AgentTaskInputSnapshot} (h : snapshotOf host call = .ok made) :
    ∃ snapshot, tenderInput call = .ok snapshot ∧
      made.inputFingerprint = fingerprint host snapshot ∧
      made.snapshotReference = some (strip snapshot.attachmentId) ∧
      made.displayMetadata = stripped (metadataOf snapshot) ∧
      ∀ e ∈ metadataOf snapshot, isBlank e.2 = false := by
  simp only [snapshotOf, AgentTaskInputSnapshot.make, except_bind_ok, requireText_ok] at h
  obtain ⟨snapshot, hinput, _, ⟨-, rfl⟩, reference, hreference, metadata, hmetadata, h⟩ := h
  obtain rfl := Except.ok.inj h
  obtain ⟨rfl, hgiven⟩ := normalizeMetadata_eq keys_metadataOf.2 keys_metadataOf.1 hmetadata
  refine ⟨snapshot, hinput, strip_fingerprint, ?_, rfl, hgiven⟩
  cases hrequired : requireText .value snapshot.attachmentId "快照引用" with
  | error e =>
    rw [Option.mapM_some, hrequired] at hreference
    cases hreference
  | ok text =>
    rw [Option.mapM_some, hrequired] at hreference
    obtain rfl := Except.ok.inj hreference
    rw [(requireText_ok.1 hrequired).2]

theorem prepare_ok {key print : String} {metadata : List (String × String)}
    (h : prepare host call profile = .ok (key, print, metadata)) :
    ∃ snapshot, tenderInput call = .ok snapshot ∧ print = fingerprint host snapshot ∧
      metadata = stripped (metadataOf snapshot) ∧
      ∀ e ∈ metadataOf snapshot, isBlank e.2 = false := by
  simp only [prepare, except_bind_ok, exists_unit] at h
  obtain ⟨made, hmade, -, _, -, h⟩ := h
  obtain ⟨snapshot, hinput, hprint, hreference, hmetadata, hgiven⟩ := snapshotOf_ok hmade
  obtain ⟨rfl, rfl, rfl⟩ : _ ∧ _ ∧ _ := by simpa using Except.ok.inj h
  refine ⟨snapshot, hinput, hprint, ?_, hgiven⟩
  unfold submissionMetadata
  rw [hreference, hmetadata]
  exact assign_reference

/-- A submission answers a task that was stored before, or one of its own. -/
theorem submit_ok {principal : RequestPrincipal} {key : String}
    (hgiven : ∀ e ∈ metadataOf snapshot, isBlank e.2 = false)
    (h : submit stores profile principal key (fingerprint host snapshot)
      (stripped (metadataOf snapshot)) store = .ok (task, store')) :
    task.inputFingerprint = fingerprint host snapshot ∧
      (task ∈ store ∧ store' = store ∨ MadeOf host snapshot task ∧ store' = store ++ [task]) := by
  simp only [submit, except_bind_ok, requireText_ok, exists_unit] at h
  obtain ⟨_, ⟨-, rfl⟩, _, ⟨-, rfl⟩, -, -, metadata, hmetadata, h⟩ := h
  have hclean : ∀ e ∈ stripped (metadataOf snapshot), strip e.1 = e.1 := by
    intro e he
    obtain ⟨e', he', rfl⟩ := List.mem_map.1 he
    exact keys_metadataOf.2 e' he'
  obtain ⟨rfl, -⟩ := normalizeMetadata_eq hclean
    (by rw [List.nil_append, keys_stripped]; exact keys_metadataOf.1) hmetadata
  rw [strip_fingerprint, stripped_stripped, List.nil_append] at h
  split at h
  · next persisted hpersisted =>
    simp only [except_bind_ok, exists_unit, require_ok] at h
    obtain ⟨hsame, h⟩ := h
    obtain ⟨rfl, rfl⟩ := Prod.mk.inj (Except.ok.inj h)
    exact ⟨hsame, Or.inl ⟨List.mem_of_find?_eq_some hpersisted, rfl⟩⟩
  · simp only [except_bind_ok, exists_unit, require_ok] at h
    obtain ⟨rfl, rfl⟩ := Prod.mk.inj (Except.ok.inj h.2)
    exact ⟨rfl, Or.inr ⟨⟨rfl, rfl, hgiven⟩, rfl⟩⟩

/-- An accepted command is answered a task that was stored before, or one made of its snapshot. -/
theorem execute_accepted (h : execute host stores routes command store = (.accepted task, store')) :
    ∃ snapshot, tenderInput command.call = .ok snapshot ∧
      task.inputFingerprint = fingerprint host snapshot ∧
      (task ∈ store ∧ store' = store ∨ MadeOf host snapshot task ∧ store' = store ++ [task]) := by
  unfold execute at h
  split at h
  · cases h
  split_ifs at h
  swap
  · cases h
  split at h
  · cases h
  next key print metadata hprepared =>
  obtain ⟨snapshot, hinput, rfl, rfl, hgiven⟩ := prepare_ok hprepared
  split at h
  · next e he =>
    cases e <;> cases h
  · next hsubmitted =>
    obtain ⟨houtcome, rfl⟩ := Prod.mk.inj h
    obtain rfl := Outcome.accepted.inj houtcome
    exact ⟨snapshot, hinput, submit_ok hgiven hsubmitted⟩

/-- A command is carried out. -/
def Submits (host : Host) (stores : Task → Bool) (routes : List AgentTaskProfile)
    (store : List Task) (command : AgentExecutionCommand) (store' : List Task) : Prop :=
  store' = (execute host stores routes command store).2

/-- Every stored task was made of the snapshot of a command. -/
def Traced (host : Host) (commands : List AgentExecutionCommand) (store : List Task) : Prop :=
  ∀ task ∈ store, ∃ command ∈ commands, ∃ snapshot,
    tenderInput command.call = .ok snapshot ∧ MadeOf host snapshot task

theorem execute_failed {errorCode message : String} {retryable : Bool}
    (h : (execute host stores routes command store).1 = .failed errorCode message retryable) :
    (execute host stores routes command store).2 = store := by
  unfold execute at h ⊢
  split at h
  · rfl
  split_ifs at h ⊢
  swap
  · rfl
  split at h
  · rfl
  split at h
  · rfl
  · cases h

/-- **Stored tasks are made of snapshots**, in every run. -/
theorem Submits.traced (hs : Steps (Submits host stores routes) [] commands store) :
    Traced host commands store := by
  refine hs.snocInduction (P := Traced host) (fun task htask => (by cases htask)) ?_
  intro commands store store' command _ htraced hstep
  have hkept : ∀ task ∈ store, ∃ c ∈ commands ++ [command], ∃ snapshot,
      tenderInput c.call = .ok snapshot ∧ MadeOf host snapshot task := by
    intro task htask
    obtain ⟨c, hc, hmade⟩ := htraced task htask
    exact ⟨c, List.mem_append_left _ hc, hmade⟩
  intro task htask
  rw [hstep] at htask
  cases houtcome : (execute host stores routes command store).1 with
  | failed =>
    rw [execute_failed houtcome] at htask
    exact hkept task htask
  | accepted answered =>
    have hexecute : execute host stores routes command store =
        (.accepted answered, (execute host stores routes command store).2) := Prod.ext houtcome rfl
    obtain ⟨snapshot, hinput, -, ⟨-, hsame⟩ | ⟨hmade, hnew⟩⟩ := execute_accepted hexecute
    · rw [hsame] at htask
      exact hkept task htask
    · rw [hnew] at htask
      rcases List.mem_append.1 htask with htask | htask
      · exact hkept task htask
      · rw [List.mem_singleton.1 htask]
        exact ⟨command, List.mem_append_right _ (List.mem_singleton.2 rfl), snapshot, hinput, hmade⟩

/-! ## What is rebuilt -/

theorem codePoints_injective {a b : String} (h : codePoints a = codePoints b) : a = b := by
  unfold codePoints at h
  have hchars : Function.Injective Char.toNat := by
    intro c d hcd
    rw [← Char.ofNat_toNat c, hcd, Char.ofNat_toNat]
  exact String.toList_inj.1 (List.map_injective_iff.2 hchars h)

/-- A text or `null`. -/
def optionalText (value : Option String) : Json := (value.map Json.str).getD .null

theorem optionalText_readable {depth : Nat} (value : Option String) :
    (optionalText value).Readable depth := by
  cases value with
  | none => exact .null
  | some text => exact .str text

theorem optionalText_injective {a b : Option String}
    (h : (optionalText a).value = (optionalText b).value) : a = b := by
  cases a <;> cases b
  · rfl
  · cases h
  · cases h
  · exact congrArg some (codePoints_injective (JsonValue.str.inj h))

/-- Snapshots of one canonical text are one. -/
theorem canonical_injective (h : canonical snapshot = canonical other) : snapshot = other := by
  have hspaced : ({ item := [','], key := [':'], ensureAscii := false } : JsonStyle).Spaced :=
    { item := ⟨[], rfl, by simp⟩
      key := ⟨[], rfl, by simp⟩ }
  have hread (s : TenderTaskInput) : loads 1 (canonical s) = .ok (.obj
      [(codePoints "attachment_id", .str (codePoints s.attachmentId)),
        (codePoints "conversation_id", (optionalText s.conversationId).value),
        (codePoints "file_name", .str (codePoints s.fileName)),
        (codePoints "media_type", .str (codePoints s.mediaType)),
        (codePoints "sha256", .str (codePoints s.sha256)),
        (codePoints "user_focus", (optionalText s.userFocus).value)]) := by
    apply loads_dumps hspaced
    apply Json.Readable.obj
    intro f hf
    simp only [List.mem_cons, List.not_mem_nil, or_false] at hf
    rcases hf with rfl | rfl | rfl | rfl | rfl | rfl
    · exact .str _
    · exact optionalText_readable _
    · exact .str _
    · exact .str _
    · exact .str _
    · exact optionalText_readable _
  have hvalues := (hread snapshot).symm.trans (h ▸ hread other)
  simp only [Except.ok.injEq, JsonValue.obj.injEq, List.cons.injEq, Prod.mk.injEq, true_and,
    JsonValue.str.injEq, and_true] at hvalues
  obtain ⟨hid, hconversation, hname, hmedia, hsha, hfocus⟩ := hvalues
  obtain ⟨attachmentId, fileName, mediaType, sha256, userFocus, conversationId⟩ := snapshot
  obtain ⟨attachmentId', fileName', mediaType', sha256', userFocus', conversationId'⟩ := other
  obtain rfl := codePoints_injective hid
  obtain rfl := codePoints_injective hname
  obtain rfl := codePoints_injective hmedia
  obtain rfl := codePoints_injective hsha
  obtain rfl := optionalText_injective hfocus
  obtain rfl := optionalText_injective hconversation
  rfl

variable {reference : AttachmentRef}

/-- The snapshot of a call is that of its attachment, and its other texts have no white space at
their ends. -/
theorem tenderInput_ok (hsource : call.sourceDocument = some reference)
    (h : tenderInput call = .ok snapshot) :
    snapshot.attachmentId = reference.attachmentId ∧ snapshot.fileName = reference.fileName ∧
      snapshot.mediaType = reference.mediaType ∧ snapshot.sha256 = reference.sha256 ∧
      snapshot.userFocus.map strip = snapshot.userFocus ∧
      snapshot.conversationId.map strip = snapshot.conversationId := by
  have hconversation : call.conversationId.map strip = call.conversationId := by
    cases hc : call.conversationId with
    | none => rfl
    | some c => exact congrArg some (call.conversation c hc).2
  unfold tenderInput at h
  rw [hsource] at h
  dsimp only at h
  split at h
  · obtain rfl := Except.ok.inj h
    exact ⟨rfl, rfl, rfl, rfl, rfl, hconversation⟩
  · next focus _ =>
    obtain rfl := Except.ok.inj h
    refine ⟨rfl, rfl, rfl, rfl, ?_, hconversation⟩
    dsimp only
    split_ifs
    · rfl
    · exact congrArg some strip_strip
  · cases h

/-- The first steps of `TenderTaskExecutor.execute`, from what the storage answers. -/
def runInput (metadata : List (String × String)) (result : AttachmentReadResult) :
    Except SubmissionError Attachments.Bytes := do
  let snapshot ← snapshotFromContext metadata
  readInput result snapshot

/-- The executor rebuilds the snapshot of the submission, and is given the content of the attachment
that the storage still has. -/
def Rebuilds (snapshot : TenderTaskInput) (reference : AttachmentRef) (task : Task) : Prop :=
  snapshotFromContext task.displayMetadata = .ok snapshot ∧
    ∀ content, runInput task.displayMetadata
      { status := .available
        attachment := some reference
        content := some content } = .ok content

theorem reference_clean (h : reference.checked = .ok reference) :
    strip reference.attachmentId = reference.attachmentId ∧
      strip reference.sha256 = reference.sha256 := by
  simp only [AttachmentRef.checked, except_bind_ok, exists_unit, require_ok] at h
  have hresolved := resolve_of_generated h.1
  unfold resolveAttachmentDir at hresolved
  split_ifs at hresolved
  exact ⟨Option.some.inj hresolved, strip_hexdigest h.2.2.2.1⟩

/-- **What the executor rebuilds.** In every run of submissions of whose snapshots no two share a
digest, the task that answers an accepted submission gives the executor the snapshot of that
submission, and the reader the content of the attachment, exactly if the file name and the media type
of the attachment have no white space at their ends. -/
theorem rebuilt_iff (hs : Steps (Submits host stores routes) [] commands store)
    (hcollision : ∀ c ∈ commands, ∀ s s', tenderInput c.call = .ok s →
      tenderInput command.call = .ok s' →
      host.sha256 (utf8Encode (canonical s)) = host.sha256 (utf8Encode (canonical s')) →
        canonical s = canonical s')
    (h : execute host stores routes command store = (.accepted task, store'))
    (hsource : command.call.sourceDocument = some reference)
    (hinput : tenderInput command.call = .ok snapshot) :
    Rebuilds snapshot reference task ↔
      strip reference.fileName = reference.fileName ∧
        strip reference.mediaType = reference.mediaType := by
  have hmade : MadeOf host snapshot task := by
    obtain ⟨s, hs', hprint, ⟨hstored, -⟩ | ⟨hmade, -⟩⟩ := execute_accepted h
    · obtain rfl := Except.ok.inj (hinput.symm.trans hs')
      obtain ⟨c, hc, s, hcs, hmade⟩ := Submits.traced hs task hstored
      have hsame := hcollision c hc s snapshot hcs hinput (hmade.fingerprint.symm.trans hprint)
      rwa [canonical_injective hsame] at hmade
    · rwa [Except.ok.inj (hinput.symm.trans hs')]
  have hrebuilt : snapshotFromContext task.displayMetadata = .ok snapshot.stripped := by
    rw [hmade.metadata]
    exact snapshotFromContext_stripped hmade.given
  obtain ⟨hid, hname, hmedia, hsha, hfocus, hconversation⟩ := tenderInput_ok hsource hinput
  obtain ⟨hidClean, hshaClean⟩ := reference_clean (command.call.checked reference hsource)
  unfold Rebuilds runInput
  rw [hrebuilt]
  constructor
  · rintro ⟨hsame, -⟩
    have hsame := Except.ok.inj hsame
    have hfile : strip snapshot.fileName = snapshot.fileName :=
      congrArg TenderTaskInput.fileName hsame
    have htype : strip snapshot.mediaType = snapshot.mediaType :=
      congrArg TenderTaskInput.mediaType hsame
    rw [hname] at hfile
    rw [hmedia] at htype
    exact ⟨hfile, htype⟩
  · rintro ⟨hfile, htype⟩
    have hsame : snapshot.stripped = snapshot := by
      unfold TenderTaskInput.stripped
      rw [hfocus, hconversation, hid, hname, hmedia, hsha, hidClean, hshaClean, hfile, htype, ← hid,
        ← hname, ← hmedia, ← hsha]
    rw [hsame]
    refine ⟨rfl, fun content => ?_⟩
    rw [ok_bind]
    unfold readInput
    dsimp only
    rw [require, if_pos rfl, require, if_pos ⟨hname.symm, hmedia.symm, hsha.symm⟩]
    rfl

end Stored

/-! ## An attachment with a space before its name -/

/-- A reference to a stored text of two bytes. -/
def textReference (fileName : String) : AttachmentRef where
  attachmentId := hiId
  fileName
  mediaType := "text/plain"
  sizeBytes := 2
  sha256 := plainHost.sha256 []

theorem checked_textReference {fileName : String} (h : isBlank fileName = false) :
    (textReference fileName).checked = .ok (textReference fileName) := by
  have hid : isHexId false hiId = true := by decide +kernel
  have hmedia : isBlank "text/plain" = false := by decide +kernel
  have hsha : Attachments.isHexDigest (plainHost.sha256 []) = true := plainHost.hexdigest []
  unfold AttachmentRef.checked textReference
  dsimp only
  rw [require, if_pos hid, require, if_pos h, require, if_pos hmedia, require, if_pos hsha]
  rfl

/-- The route of the tender agent. -/
def tenderProfile : AgentTaskProfile where
  capabilityCode := "agent.tender.generate_bid_skeleton"
  taskType := "tender.generate_bid_skeleton"
  maxAttempts := 2
  displayMetadataFields := ["snapshot_reference", "file_name", "media_type", "sha256", "user_focus",
    "conversation_id"]

/-- A call about an attachment. -/
def commandAbout (fileName : String) (h : isBlank fileName = false) : AgentExecutionCommand where
  principal := ⟨"alice", true⟩
  capability := ⟨"agent.tender.generate_bid_skeleton", true, true⟩
  call :=
    { callId := "call-1"
      capabilityCode := "agent.tender.generate_bid_skeleton"
      sourceDocument := some (textReference fileName)
      conversation := by
        intro c hc
        cases hc
      checked := by
        intro reference hreference
        obtain rfl := Option.some.inj hreference
        exact checked_textReference h }

def Outcome.task? : Outcome → Option Task
  | .accepted task => some task
  | .failed .. => none

/-- What answers the first command about an attachment. -/
def answerTo (fileName : String) (h : isBlank fileName = false) : Outcome × List Task :=
  execute plainHost (fun _ => true) [tenderProfile] (commandAbout fileName h) []

theorem answerTo_accepted {fileName : String} {h : isBlank fileName = false} {task : Task}
    (ht : (answerTo fileName h).1.task? = some task) :
    answerTo fileName h = (.accepted task, (answerTo fileName h).2) := by
  cases houtcome : (answerTo fileName h).1 with
  | accepted answered =>
    rw [houtcome] at ht
    obtain rfl := Option.some.inj ht
    exact Prod.ext houtcome rfl
  | failed =>
    rw [houtcome] at ht
    cases ht

theorem named_docx : isBlank "a.docx" = false := by decide +kernel

theorem named_spaced : isBlank " a.docx" = false := by decide +kernel

theorem rebuilt_plain : ∃ task snapshot,
    (answerTo "a.docx" named_docx).1 = .accepted task ∧
      tenderInput (commandAbout "a.docx" named_docx).call = .ok snapshot ∧
        Rebuilds snapshot (textReference "a.docx") task := by
  have hsome : (answerTo "a.docx" named_docx).1.task?.isSome = true := by decide +kernel
  obtain ⟨task, htask⟩ := Option.isSome_iff_exists.1 hsome
  have hclean : strip "a.docx" = "a.docx" ∧ strip "text/plain" = "text/plain" := by decide +kernel
  have haccepted := answerTo_accepted htask
  exact ⟨task, _, congrArg Prod.fst haccepted, rfl,
    (rebuilt_iff (.nil []) (fun c hc => nomatch hc) haccepted rfl rfl).2 hclean⟩

/-- The file name ` a.docx` is stored without its space. -/
theorem spaced_name_fails : ¬∀ host stores routes command task store' reference snapshot,
    execute host stores routes command [] = (.accepted task, store') →
      command.call.sourceDocument = some reference → tenderInput command.call = .ok snapshot →
        Rebuilds snapshot reference task := by
  intro h
  have hsome : (answerTo " a.docx" named_spaced).1.task?.isSome = true := by decide +kernel
  have hrebuilt : ((answerTo " a.docx" named_spaced).1.task?.all fun task =>
      (snapshotFromContext task.displayMetadata).toOption.all fun snapshot =>
        snapshot.fileName = "a.docx") = true := by decide +kernel
  obtain ⟨task, htask⟩ := Option.isSome_iff_exists.1 hsome
  obtain ⟨hsnapshot, -⟩ := h _ _ _ _ _ _ _ _ (answerTo_accepted htask) rfl rfl
  rw [htask, Option.all_some, hsnapshot] at hrebuilt
  exact absurd (of_decide_eq_true hrebuilt : (" a.docx" : String) = "a.docx") (by decide)

end GoAgent.Tender.Submission
