import GoAgent.Foundation.Keyed
import GoAgent.Foundation.Raising
import GoAgent.Foundation.Text

/-!
# The attachment storage

`FilesystemAttachmentStorage` stages the content of a file under a new id, bound to a subject and a
conversation, and gives it back until it expires. A record keeps with the metadata the file in its
directory; a directory without a record is never read.

A write to the file system may fail, and takes time: an `Environment` says which and how long. The
server's clock does not go back. An id is a `uuid4().hex`: it is new.
-/

namespace GoAgent.Attachments

open GoAgent.Foundation

abbrev Bytes := List UInt8

/-- `[0-9a-fA-F]{64}` -/
def isHexDigest (s : String) : Bool :=
  s.length = 64 && s.toList.all fun c =>
    isDigit c || (97 ≤ c.toNat && c.toNat ≤ 102) || (65 ≤ c.toNat && c.toNat ≤ 70)

/-- What the storage is configured with, and what it finds in the system. -/
structure Platform where
  /-- `str.lower` -/
  lower : String → String
  sha256 : Bytes → String
  /-- The names the file system takes for a file. -/
  accepts : String → Bool
  maxSizeBytes : Nat
  retentionSeconds : Nat
  retention_pos : 0 < retentionSeconds
  allowedMediaTypes : List String
  hexdigest : ∀ content, isHexDigest (sha256 content) = true

structure Environment where
  /-- Whether the n-th write fails. -/
  fails : Nat → Bool
  /-- The microseconds the n-th write takes. -/
  elapses : Nat → Nat

inductive StoreException where
  | valueError (message : String)
  | osError
  | tenderResultResourceStoreError (message : String)
  deriving DecidableEq

/-! ## Contracts -/

structure AttachmentAccessContext where
  subject : String
  conversationId : Option String
  deriving DecidableEq

/-- The constructor, with `__post_init__`. -/
def AttachmentAccessContext.make (subject : String) (conversationId : Option String) :
    Except StoreException AttachmentAccessContext := do
  require (isBlank subject = false) (.valueError "attachment access subject must be non-empty")
  match conversationId with
  | none => .ok ⟨strip subject, none⟩
  | some conversation =>
    require (isBlank conversation = false)
      (.valueError "attachment conversation_id must be non-empty when provided")
    .ok ⟨strip subject, some (strip conversation)⟩

inductive AttachmentStatus where
  | available | consumed | expired | missing
  deriving DecidableEq

structure AttachmentRef where
  attachmentId : UUID
  fileName : String
  mediaType : String
  sizeBytes : Nat
  sha256 : String
  status : AttachmentStatus := .available
  deriving DecidableEq

/-- `__post_init__` -/
def AttachmentRef.checked (reference : AttachmentRef) : Except StoreException AttachmentRef := do
  require (isBlank reference.fileName = false) (.valueError "attachment file_name must be non-empty")
  require (isBlank reference.mediaType = false)
    (.valueError "attachment media_type must be non-empty")
  require (isHexDigest reference.sha256)
    (.valueError "attachment sha256 must be a hexadecimal digest")
  .ok reference

structure AttachmentReadResult where
  status : AttachmentStatus
  attachment : Option AttachmentRef := none
  content : Option Bytes := none
  errorCode : Option String := none

/-! ## The storage -/

structure AttachmentRecord where
  reference : AttachmentRef
  ownerSubject : String
  conversationId : Option String
  expiresAt : Int
  status : AttachmentStatus := .available
  /-- The file in the directory of the attachment. -/
  file : Option Bytes

def AttachmentRecord.id (r : AttachmentRecord) : UUID := r.reference.attachmentId

structure Storage where
  now : Int := 0
  records : List AttachmentRecord := []
  /-- The number of ids given out. -/
  issued : UUID := 0
  /-- The number of writes. -/
  writes : Nat := 0

/-- `PurePosixPath(path).name` -/
def baseName (path : String) : String :=
  let parts := (path.toList.splitOn '/').filter fun part => part ≠ [] ∧ part ≠ ['.']
  String.ofList (parts.getLast?.getD [])

theorem baseName_baseName (path : String) : baseName (baseName path) = baseName path := by
  have hname (name : List Char) (hne : name ≠ [] ∧ name ≠ ['.']) (hsep : '/' ∉ name) :
      baseName (String.ofList name) = String.ofList name := by
    unfold baseName
    rw [String.toList_ofList, List.splitOn_eq_singleton hsep]
    simp [hne.1, hne.2]
  unfold baseName
  dsimp only
  cases hlast : ((path.toList.splitOn '/').filter fun part => part ≠ [] ∧ part ≠ ['.']).getLast? with
  | none => rfl
  | some name =>
    obtain ⟨hmem, hne⟩ := List.mem_filter.1 (List.mem_of_getLast? hlast)
    have hsep : '/' ∉ name := fun h => (mem_of_mem_splitOn hmem '/' h).2 rfl
    exact hname name (of_decide_eq_true hne) hsep

/-- What `cleanup_expired` does to a record. -/
def AttachmentRecord.cleaned (now : Int) (r : AttachmentRecord) : AttachmentRecord :=
  if r.status ≠ .available ∨ now < r.expiresAt then r
  else { r with status := .expired, file := none }

namespace Storage

variable (p : Platform) (env : Environment)

def cleanupExpired (s : Storage) : Storage :=
  { s with records := s.records.map (AttachmentRecord.cleaned s.now) }

/-- A write to the file system. -/
def write : EStateM StoreException Storage Unit := do
  let s ← get
  set { s with writes := s.writes + 1, now := s.now + env.elapses s.writes }
  check (env.fails s.writes = false) .osError

def newId : EStateM StoreException Storage UUID := do
  let s ← get
  set { s with issued := s.issued + 1 }
  pure s.issued

def validFileName (fileName : String) : Bool :=
  fileName ≠ "" && fileName ≠ "." && fileName ≠ ".." && !fileName.startsWith "."

/-- The checks of `stage_attachment`, which answer the normalized file name and media type. -/
def normalized (fileName mediaType : String) : Except StoreException (String × String) := do
  require (validFileName (baseName fileName)) (.valueError "附件必须包含有效文件名。")
  require (p.lower (strip mediaType) ∈ p.allowedMediaTypes) (.valueError "附件媒体类型不受支持。")
  .ok (baseName fileName, p.lower (strip mediaType))

/-- The copy of the content to its place. -/
def writeContent (fileName : String) (content : Bytes) : EStateM StoreException Storage Unit := do
  write env
  check (content.length ≤ p.maxSizeBytes) (.valueError s!"附件不能超过 {p.maxSizeBytes} 字节。")
  check (content ≠ []) (.valueError "附件不能为空。")
  check (p.accepts fileName) .osError

/-- The record, which is kept once its manifest is written. -/
def register (reference : AttachmentRef) (content : Bytes) (context : AttachmentAccessContext) :
    EStateM StoreException Storage Unit := do
  let createdAt := (← get).now
  write env
  modify fun s => { s with
    records := s.records ++ [{
      reference
      ownerSubject := context.subject
      conversationId := context.conversationId
      expiresAt := createdAt + p.retentionSeconds * 1000000
      file := some content }] }

def stageAttachment (fileName mediaType : String) (content : Bytes)
    (context : AttachmentAccessContext) : EStateM StoreException Storage AttachmentRef := do
  modify cleanupExpired
  check (isBlank context.subject = false) (.valueError "附件访问主体无效。")
  let (normalizedFileName, normalizedMediaType) ← lift (normalized p fileName mediaType)
  let attachmentId ← newId
  writeContent p env normalizedFileName content
  let reference ← lift (AttachmentRef.checked {
    attachmentId
    fileName := normalizedFileName
    mediaType := normalizedMediaType
    sizeBytes := content.length
    sha256 := p.sha256 content })
  register p env reference content context
  pure reference

def recordForContext (s : Storage) (attachmentId : UUID) (context : AttachmentAccessContext) :
    Option AttachmentRecord :=
  match lookup AttachmentRecord.id attachmentId s.records with
  | none => none
  | some record =>
    if context.subject ≠ record.ownerSubject then none
    else if record.conversationId ≠ none ∧ context.conversationId ≠ record.conversationId then none
    else some record

/-- `_read_verified_content`: a name that ends in `.part` is taken for a file being written. -/
def readVerifiedContent (record : AttachmentRecord) : Option Bytes :=
  match record.file with
  | none => none
  | some content =>
    if record.reference.fileName.endsWith ".part" then none
    else if content.length ≠ record.reference.sizeBytes ∨
        p.sha256 content ≠ record.reference.sha256 then none
    else some content

def missingResult : AttachmentReadResult :=
  { status := .missing, errorCode := some "ATTACHMENT_NOT_FOUND" }

def terminalResult (record : AttachmentRecord) : AttachmentReadResult :=
  { status := record.status
    errorCode := some (match record.status with
      | .consumed => "ATTACHMENT_CONSUMED"
      | .expired => "ATTACHMENT_EXPIRED"
      | .missing | .available => "ATTACHMENT_NOT_FOUND")
    attachment := some { record.reference with status := record.status } }

/-- What `read` answers, and what it leaves. -/
def read (s : Storage) (attachmentId : UUID) (context : AttachmentAccessContext) :
    AttachmentReadResult × Storage :=
  let s := s.cleanupExpired
  match s.recordForContext attachmentId context with
  | none => (missingResult, s)
  | some record =>
    if record.status ≠ .available then (terminalResult record, s)
    else
      match readVerifiedContent p record with
      | none =>
        let record := { record with status := .missing, file := none }
        (terminalResult record, { s with
          records := replace AttachmentRecord.id attachmentId record s.records })
      | some content =>
        ({ status := .available, attachment := some record.reference, content := some content }, s)

def discard (s : Storage) (attachmentId : UUID) (context : AttachmentAccessContext) : Storage :=
  let s := s.cleanupExpired
  match s.recordForContext attachmentId context with
  | none => s
  | some _ => { s with records := s.records.filter fun r => r.id ≠ attachmentId }

end Storage

end GoAgent.Attachments
