import GoAgent.Attachments.Storage
import GoAgent.Foundation.Transition

/-!
# The result resources of a tender task

`saveResources` stages the files of a result one by one and then writes the manifest of the task,
which `listResources` reads back and a repeated `saveResources` compares with the result.
-/

namespace GoAgent.Tender

open GoAgent.Foundation GoAgent.Attachments

structure GeneratedTenderArtifact where
  fileName : String
  mediaType : String
  content : Bytes
  deriving DecidableEq

structure TaskResultResource where
  resourceId : UUID
  fileName : String
  mediaType : String
  sizeBytes : Nat
  sha256 : String
  deriving DecidableEq

/-- `__post_init__` -/
def TaskResultResource.checked (resource : TaskResultResource) :
    Except StoreException TaskResultResource := do
  require (isBlank resource.fileName = false) (.valueError "结果资源文件名不能为空。")
  require (isBlank resource.mediaType = false) (.valueError "结果资源媒体类型不能为空。")
  require (0 < resource.sizeBytes) (.valueError "结果资源大小必须为正整数。")
  require (isHexDigest resource.sha256) (.valueError "结果资源哈希无效。")
  .ok resource

/-- The file `resources/{task_id}.json`. -/
structure ResourceManifest where
  taskId : UUID
  ownerSubject : String
  conversationId : String
  resources : List TaskResultResource
  deriving DecidableEq

structure ResultStore where
  storage : Storage := {}
  manifests : List ResourceManifest := []

abbrev ResultM := EStateM StoreException ResultStore

/-- The attachment storage at work. -/
def onStorage {α : Type} (m : EStateM StoreException Storage α) : ResultM α := fun s =>
  match m s.storage with
  | .ok a storage => .ok a { s with storage }
  | .error e storage => .error e { s with storage }

/-- The name, the media type, the size and the digest of a resource. -/
abbrev Identity := String × String × Nat × String

/-- `_resource_identity` -/
def resourceIdentity (resource : TaskResultResource) : Identity :=
  (resource.fileName, resource.mediaType, resource.sizeBytes, resource.sha256)

/-- `_read_manifest_resources` -/
def readManifestResources (data : ResourceManifest) :
    Except StoreException (List TaskResultResource) := do
  require (data.resources ≠ []) (.valueError "Tender 结果资源清单无效。")
  mapEach TaskResultResource.checked data.resources

/-- `_expected_resource_metadata`, whose resource ids are never read. -/
def expectedResourceMetadata (p : Platform) (artifacts : List GeneratedTenderArtifact) :
    Except StoreException (List TaskResultResource) :=
  artifacts |> mapEach fun artifact => do
    require (artifact.content ≠ []) (.valueError "Tender 结果缺少可交付文件。")
    TaskResultResource.checked {
      resourceId := 0
      fileName := artifact.fileName
      mediaType := artifact.mediaType
      sizeBytes := artifact.content.length
      sha256 := p.sha256 artifact.content }

/-- The check that `list_resources` and `_validate_stored_resources` make of a read. -/
def storedAs (resource : TaskResultResource) (readResult : AttachmentReadResult) : Bool :=
  readResult.status = .available &&
  match readResult.attachment with
  | none => false
  | some attachment =>
    attachment.fileName = resource.fileName && attachment.mediaType = resource.mediaType &&
      attachment.sha256 = resource.sha256 && attachment.sizeBytes = resource.sizeBytes

/-- Whether all resources are stored, and what the reads leave. -/
def readAll (p : Platform) (context : AttachmentAccessContext) :
    List TaskResultResource → Storage → Bool × Storage
  | [], storage => (true, storage)
  | resource :: resources, storage =>
    let (readResult, storage) := storage.read p resource.resourceId context
    if storedAs resource readResult then readAll p context resources storage else (false, storage)

/-- `_validate_stored_resources` -/
def validateStoredResources (p : Platform) (resources : List TaskResultResource)
    (ownerSubject conversationId : String) : ResultM Unit := do
  let context ← lift (AttachmentAccessContext.make ownerSubject (some conversationId))
  let s ← get
  let (stored, storage) := readAll p context resources s.storage
  set { s with storage }
  check (stored = true) (.valueError "Tender 结果资源附件不可用。")

def invalidManifest : StoreException :=
  .tenderResultResourceStoreError "Tender 结果资源清单无效。"

/-- The repetition of `save_resources`, on the manifest of the task. -/
def repeatResources (p : Platform) (ownerSubject conversationId : String)
    (artifacts : List GeneratedTenderArtifact) (data : ResourceManifest) :
    ResultM (List TaskResultResource) := do
  check (data.ownerSubject = ownerSubject ∧ data.conversationId = conversationId) invalidManifest
  let existing ← lift ((readManifestResources data).mapError fun _ => invalidManifest)
  let expected ← lift ((expectedResourceMetadata p artifacts).mapError fun _ => invalidManifest)
  check (existing.map resourceIdentity = expected.map resourceIdentity)
    (.tenderResultResourceStoreError "Tender 结果资源元数据不一致。")
  tryCatch (validateStoredResources p existing ownerSubject conversationId) fun _ =>
    throw (.tenderResultResourceStoreError "Tender 结果资源附件不可用。")
  pure existing

/-- The staging of one file. -/
def stageArtifact (p : Platform) (env : Environment) (ownerSubject conversationId : String)
    (artifact : GeneratedTenderArtifact) : ResultM TaskResultResource := do
  check (artifact.content ≠ [])
    (.tenderResultResourceStoreError "Tender 结果缺少可交付文件。")
  let context ← lift (AttachmentAccessContext.make ownerSubject (some conversationId))
  let reference ← onStorage
    (Storage.stageAttachment p env artifact.fileName artifact.mediaType artifact.content context)
  lift (TaskResultResource.checked {
    resourceId := reference.attachmentId
    fileName := reference.fileName
    mediaType := reference.mediaType
    sizeBytes := reference.sizeBytes
    sha256 := reference.sha256 })

/-- The `except` of `save_resources`: what the call has staged is discarded. -/
def abort (ownerSubject conversationId : String) (created : List TaskResultResource)
    (e : StoreException) : ResultM (List TaskResultResource) := do
  created.forM fun resource => do
    let context ← lift (AttachmentAccessContext.make ownerSubject (some conversationId))
    modify fun s => { s with storage := s.storage.discard resource.resourceId context }
  match e with
  | .tenderResultResourceStoreError message => throw (.tenderResultResourceStoreError message)
  | .valueError _ | .osError =>
    throw (.tenderResultResourceStoreError "Tender 结果资源写入失败。")

/-- The `try` of `save_resources`, from the next artifact on. -/
def createResources (p : Platform) (env : Environment) (taskId : UUID)
    (ownerSubject conversationId : String) :
    List GeneratedTenderArtifact → List TaskResultResource → ResultM (List TaskResultResource)
  | [], created =>
    tryCatch
      (do
        onStorage (Storage.write env)
        modify fun s => { s with
          manifests := s.manifests ++ [⟨taskId, ownerSubject, conversationId, created⟩] }
        pure created)
      (abort ownerSubject conversationId created)
  | artifact :: artifacts, created => do
    let created ← tryCatch
      (do
        let resource ← stageArtifact p env ownerSubject conversationId artifact
        pure (created ++ [resource]))
      (abort ownerSubject conversationId created)
    createResources p env taskId ownerSubject conversationId artifacts created

def saveResources (p : Platform) (env : Environment) (taskId : UUID)
    (ownerSubject conversationId : String) (artifacts : List GeneratedTenderArtifact) :
    ResultM (List TaskResultResource) := do
  check (isBlank conversationId = false)
    (.tenderResultResourceStoreError "Tender 结果资源依赖或 Conversation 绑定缺失。")
  match lookup ResourceManifest.taskId taskId (← get).manifests with
  | some data => repeatResources p ownerSubject conversationId artifacts data
  | none => createResources p env taskId ownerSubject conversationId artifacts []

def listResources (p : Platform) (taskId : UUID) (ownerSubject conversationId : String) :
    ResultM (Option (List TaskResultResource)) := do
  let s ← get
  match lookup ResourceManifest.taskId taskId s.manifests with
  | none => pure none
  | some data =>
    if data.ownerSubject ≠ ownerSubject ∨ data.conversationId ≠ conversationId then pure none
    else
      match readManifestResources data with
      | .error _ => pure none
      | .ok resources => do
        let context ← lift (AttachmentAccessContext.make ownerSubject (some conversationId))
        let (stored, storage) := readAll p context resources s.storage
        set { s with storage }
        pure (if stored then some resources else none)

/-! ## Runs -/

inductive Event where
  /-- Another staging. -/
  | stage (fileName mediaType : String) (content : Bytes) (subject : String)
      (conversationId : Option String)
  | read (attachmentId : UUID) (context : AttachmentAccessContext)
  | save (taskId : UUID) (ownerSubject conversationId : String)
      (artifacts : List GeneratedTenderArtifact)
  | list (taskId : UUID) (ownerSubject conversationId : String)
  | wait (microseconds : Nat)

def Event.run (p : Platform) (env : Environment) : Event → ResultM Unit
  | stage fileName mediaType content subject conversationId => do
    let context ← lift (AttachmentAccessContext.make subject conversationId)
    discard (onStorage (Storage.stageAttachment p env fileName mediaType content context))
  | read attachmentId context =>
    modify fun s => { s with storage := (s.storage.read p attachmentId context).2 }
  | save taskId ownerSubject conversationId artifacts =>
    discard (saveResources p env taskId ownerSubject conversationId artifacts)
  | list taskId ownerSubject conversationId =>
    discard (listResources p taskId ownerSubject conversationId)
  | wait microseconds =>
    modify fun s => { s with storage := { s.storage with now := s.storage.now + microseconds } }

def Moves (p : Platform) (env : Environment) (s : ResultStore) (e : Event) (t : ResultStore) :
    Prop :=
  e.run p env s = .ok () t ∨ ∃ x, e.run p env s = .error x t

/-- What a caller knows a file by. -/
def metadata (p : Platform) (artifact : GeneratedTenderArtifact) : Identity :=
  (artifact.fileName, artifact.mediaType, artifact.content.length, p.sha256 artifact.content)

/-- No staged attachment has expired. -/
def Unexpired (resources : List TaskResultResource) (s : ResultStore) : Prop :=
  ∀ resource ∈ resources, ∀ record,
    lookup AttachmentRecord.id resource.resourceId s.storage.records = some record →
      s.storage.now < record.expiresAt

/-- What is promised of a task's resources: a save that raises leaves nothing; what a save has
returned is listed and returned again, and nothing else is saved in its place. -/
def BindsResources (p : Platform) (taskId : UUID) (ownerSubject conversationId : String)
    (artifacts : List GeneratedTenderArtifact) : Prop :=
  ∀ env s, Reachable (· = {}) (Moves p env) s →
    lookup ResourceManifest.taskId taskId s.manifests = none →
    (∀ e t, saveResources p env taskId ownerSubject conversationId artifacts s = .error e t →
      lookup ResourceManifest.taskId taskId t.manifests = none ∧
      ∀ id, s.storage.issued ≤ id → lookup AttachmentRecord.id id t.storage.records = none) ∧
    ∀ resources t, saveResources p env taskId ownerSubject conversationId artifacts s =
        .ok resources t →
      ∀ events u, Steps (Moves p env) t events u → Unexpired resources u →
        (∃ v, listResources p taskId ownerSubject conversationId u = .ok (some resources) v) ∧
        (∃ v, saveResources p env taskId ownerSubject conversationId artifacts u =
          .ok resources v ∧ v.manifests = u.manifests) ∧
        ∀ ownerSubject' conversationId' artifacts',
          (ownerSubject', conversationId', artifacts'.map (metadata p)) ≠
            (ownerSubject, conversationId, artifacts.map (metadata p)) →
          ∃ e v, saveResources p env taskId ownerSubject' conversationId' artifacts' u =
            .error e v ∧ v.manifests = u.manifests

end GoAgent.Tender
