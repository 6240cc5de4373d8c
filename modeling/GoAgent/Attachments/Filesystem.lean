import GoAgent.Attachments.Storage

/-!
# The attachment storage and its root directory

`FilesystemAttachmentStorage` with all its methods. The records of an instance are in memory, the
content and the manifest of an attachment in a directory of the root that is named after it, and a
new instance restores its records from the manifests. Here an id is a text, as callers pass it, and
the directories stand beside the records: what is on disk can change behind an instance.

A `Call` says what a call finds in its surroundings: what the clock shows, and what `rmtree` leaves of
a directory it cannot remove.
-/

namespace GoAgent.Attachments.Filesystem

open GoAgent.Foundation

structure Host where
  /-- `str.lower` -/
  lower : String → String
  sha256 : Bytes → String
  /-- The names the file system takes for a file. -/
  accepts : String → Bool
  hexdigest : ∀ content, isHexDigest (sha256 content) = true

/-- What an instance is configured with. -/
structure Settings where
  maxSizeBytes : Nat
  retentionSeconds : Nat
  allowedMediaTypes : List String
  maxSize_pos : 0 < maxSizeBytes
  retention_pos : 0 < retentionSeconds
  allowed_ne_nil : allowedMediaTypes ≠ []

/-! ## Contracts -/

/-- `[0-9a-f]{32}`, where the case may be ignored. -/
@[irreducible] def isHexId (ignoreCase : Bool) (s : String) : Bool :=
  s.length = 32 && s.toList.all fun c =>
    isDigit c || (97 ≤ c.toNat && c.toNat ≤ 102) || (ignoreCase && 65 ≤ c.toNat && c.toNat ≤ 70)

structure AttachmentRef where
  attachmentId : String
  fileName : String
  mediaType : String
  sizeBytes : Nat
  sha256 : String
  status : AttachmentStatus := .available
  deriving DecidableEq

/-- `__post_init__` -/
def AttachmentRef.checked (reference : AttachmentRef) : Except StoreException AttachmentRef := do
  require (isHexId false reference.attachmentId)
    (.valueError "attachment_id must be a generated opaque identifier")
  require (isBlank reference.fileName = false) (.valueError "attachment file_name must be non-empty")
  require (isBlank reference.mediaType = false)
    (.valueError "attachment media_type must be non-empty")
  require (isHexDigest reference.sha256)
    (.valueError "attachment sha256 must be a hexadecimal digest")
  .ok reference

structure AttachmentReadResult where
  status : AttachmentStatus
  attachment : Option AttachmentRef := none
  content : Option Bytes := none
  errorCode : Option String := none
  deriving DecidableEq

/-- What a caller names an attachment by: `AttachmentRef | str`. -/
inductive Attachment where
  | ref (reference : AttachmentRef)
  | id (text : String)

/-! ## Records and directories -/

structure AttachmentRecord where
  reference : AttachmentRef
  ownerSubject : String
  conversationId : Option String
  expiresAt : Int
  status : AttachmentStatus := .available
  deriving DecidableEq

def AttachmentRecord.id (r : AttachmentRecord) : String := r.reference.attachmentId

/-- The file `.attachment.json`. -/
structure Manifest where
  attachmentId : String
  reference : AttachmentRef
  ownerSubject : String
  conversationId : Option String
  expiresAt : Int
  status : AttachmentStatus
  deriving DecidableEq

/-- A directory of the root, with its manifest if that can be read, and its other files; the content
of a file may be unreadable. -/
structure Directory where
  name : String
  manifest : Option Manifest := none
  files : List (String × Option Bytes) := []
  deriving DecidableEq

/-- An instance. -/
structure Storage where
  settings : Settings
  records : List AttachmentRecord := []

/-- An instance and the root directory. -/
structure World where
  storage : Storage
  disk : List Directory := []

structure Call where
  now : Int
  /-- What is left of a directory once it is removed. -/
  leftover : Directory → Option Directory

/-- `_attachment_id` -/
def attachmentId (attachment : Attachment) : Option String :=
  let rawId := match attachment with
    | .ref reference => reference.attachmentId
    | .id text => text
  if isHexId true (strip rawId) then some (strip rawId) else none

/-- `_resolve_attachment_dir`, the name of the directory. -/
def resolveAttachmentDir (attachmentId : String) : Option String :=
  if isHexId true (strip attachmentId) then some (strip attachmentId) else none

def isDir (name : String) (disk : List Directory) : Bool :=
  (lookup Directory.name name disk).isSome

namespace Call

variable (c : Call)

/-- `shutil.rmtree` -/
def rmtree (d : Directory) : Option Directory :=
  (c.leftover d).map fun left => { left with name := d.name }

def rmtreeAt (name : String) (disk : List Directory) : List Directory :=
  disk.filterMap fun d => if d.name = name then c.rmtree d else some d

def removeAttachmentDir (attachmentId : String) (disk : List Directory) : Bool × List Directory :=
  match resolveAttachmentDir attachmentId with
  | none => (false, disk)
  | some name =>
    let left := c.rmtreeAt name disk
    (isDir name disk && !isDir name left, left)

/-! ## Cleaning up -/

/-- The records that are over by the reference time, in the first loop of `cleanup_expired`. -/
def expireRecords (now : Int) :
    List AttachmentRecord → List Directory → Nat × List AttachmentRecord × List Directory
  | [], disk => (0, [], disk)
  | record :: records, disk =>
    if record.status ≠ .available ∨ now < record.expiresAt then
      let rest := expireRecords now records disk
      (rest.1, record :: rest.2.1, rest.2.2)
    else
      let removal := c.removeAttachmentDir record.id disk
      let rest := expireRecords now records removal.2
      (if removal.1 then rest.1 + 1 else rest.1,
        { record with status := .expired } :: rest.2.1, rest.2.2)

/-- The directories without a record, in the second loop. -/
def sweep (ids : List String) (disk : List Directory) : Nat × List Directory :=
  let left := disk.filterMap fun d => if d.name ∈ ids then some d else c.rmtree d
  (disk.length - left.length, left)

def cleanupExpired (now : Option Int) (w : World) : Nat × World :=
  let expired := c.expireRecords (now.getD c.now) w.storage.records w.disk
  let swept := c.sweep (expired.2.1.map AttachmentRecord.id) expired.2.2
  (expired.1 + swept.1,
    { storage := { w.storage with records := expired.2.1 }, disk := swept.2 })

end Call

/-! ## Access -/

def recordForContext (records : List AttachmentRecord) (attachmentId : String)
    (context : AttachmentAccessContext) : Option AttachmentRecord :=
  match lookup AttachmentRecord.id attachmentId records with
  | none => none
  | some record =>
    if context.subject ≠ record.ownerSubject then none
    else if record.conversationId ≠ none ∧ context.conversationId ≠ record.conversationId then none
    else some record

/-- The files that `_read_verified_content` takes for the content. -/
def Directory.contentFiles (d : Directory) : List (String × Option Bytes) :=
  d.files.filter fun file => !file.1.endsWith ".part" && !file.1.startsWith "."

def readVerifiedContent (host : Host) (disk : List Directory) (record : AttachmentRecord) :
    Option Bytes :=
  match resolveAttachmentDir record.id with
  | none => none
  | some name =>
    match lookup Directory.name name disk with
    | none => none
    | some d =>
      match d.contentFiles with
      | [(_, some content)] =>
        if content.length ≠ record.reference.sizeBytes ∨
            host.sha256 content ≠ record.reference.sha256 then none
        else some content
      | _ => none

def missingResult : AttachmentReadResult :=
  { status := .missing, errorCode := some "ATTACHMENT_NOT_FOUND" }

def terminalResult (record : AttachmentRecord) : AttachmentReadResult :=
  { status := record.status
    errorCode := some (match record.status with
      | .consumed => "ATTACHMENT_CONSUMED"
      | .expired => "ATTACHMENT_EXPIRED"
      | .missing | .available => "ATTACHMENT_NOT_FOUND")
    attachment := some { record.reference with status := record.status } }

def availableResult (record : AttachmentRecord) (content : Bytes) : AttachmentReadResult :=
  { status := .available, attachment := some record.reference, content := some content }

namespace World

/-- `record.status = status` -/
def setStatus (id : String) (status : AttachmentStatus) (w : World) : World :=
  { w with storage := { w.storage with
      records := w.storage.records.map fun r => if r.id = id then { r with status } else r } }

/-- `self._remove_attachment_dir(attachment_id)` -/
def removeDir (c : Call) (id : String) (w : World) : World :=
  { w with disk := (c.removeAttachmentDir id w.disk).2 }

variable (host : Host) (c : Call)

def read (attachment : Attachment) (context : AttachmentAccessContext) (w : World) :
    AttachmentReadResult × World :=
  let w := (c.cleanupExpired none w).2
  match attachmentId attachment with
  | none => (missingResult, w)
  | some id =>
    match recordForContext w.storage.records id context with
    | none => (missingResult, w)
    | some record =>
      if record.status ≠ .available then (terminalResult record, w)
      else
        match readVerifiedContent host w.disk record with
        | none =>
          (terminalResult { record with status := .missing }, (w.setStatus id .missing).removeDir c id)
        | some content => (availableResult record content, w)

def consume (attachment : Attachment) (context : AttachmentAccessContext) (w : World) :
    AttachmentReadResult × World :=
  let w := (c.cleanupExpired none w).2
  match attachmentId attachment with
  | none => (missingResult, w)
  | some id =>
    match recordForContext w.storage.records id context with
    | none => (missingResult, w)
    | some record =>
      if record.status ≠ .available then (terminalResult record, w)
      else
        match readVerifiedContent host w.disk record with
        | none =>
          (terminalResult { record with status := .missing }, (w.setStatus id .missing).removeDir c id)
        | some content =>
          (availableResult record content, (w.setStatus id .consumed).removeDir c id)

/-- `del self._records[normalized_id]` -/
def forget (id : String) (w : World) : World :=
  { w with storage := { w.storage with records := w.storage.records.filter fun r => r.id ≠ id } }

def discard (attachment : Attachment) (context : AttachmentAccessContext) (w : World) :
    Bool × World :=
  let w := (c.cleanupExpired none w).2
  match attachmentId attachment with
  | none => (false, w)
  | some id =>
    match recordForContext w.storage.records id context with
    | none => (false, w)
    | some _ => (true, (w.removeDir c id).forget id)

end World

/-! ## Staging -/

/-- What a staging finds in its surroundings besides. -/
structure Staging extends Call where
  /-- `uuid4().hex` -/
  uuid4 : String
  mkdirFails : Bool := false
  copyFails : Bool := false
  manifestFails : Bool := false
  /-- What an interrupted copy has written. -/
  partialFile : Bytes := []
  /-- The microseconds from the cleanup to the record. -/
  elapsed : Nat := 0

/-- The checks of `stage_attachment`, which answer the normalized file name and media type. -/
def normalized (host : Host) (settings : Settings) (fileName mediaType : Option String) :
    Except StoreException (String × String) := do
  let name := baseName (fileName.getD "")
  let media := host.lower (strip (mediaType.getD ""))
  require (Storage.validFileName name) (.valueError "附件必须包含有效文件名。")
  require (media ∈ settings.allowedMediaTypes) (.valueError "附件媒体类型不受支持。")
  .ok (name, media)

/-- The copy of the content to its place. -/
def copied (host : Host) (settings : Settings) (s : Staging) (fileName : String)
    (content : Bytes) : Except StoreException Unit := do
  require (s.copyFails = false) .osError
  require (content.length ≤ settings.maxSizeBytes)
    (.valueError s!"附件不能超过 {settings.maxSizeBytes} 字节。")
  require (content ≠ []) (.valueError "附件不能为空。")
  require (host.accepts fileName) .osError

def AttachmentRecord.manifest (record : AttachmentRecord) : Manifest where
  attachmentId := record.reference.attachmentId
  reference := record.reference
  ownerSubject := record.ownerSubject
  conversationId := record.conversationId
  expiresAt := record.expiresAt
  status := record.status

/-- The record of a staged file. -/
def stagedRecord (settings : Settings) (s : Staging) (reference : AttachmentRef)
    (context : AttachmentAccessContext) : AttachmentRecord where
  reference
  ownerSubject := context.subject
  conversationId := context.conversationId
  expiresAt := s.now + s.elapsed + settings.retentionSeconds * 1000000

def World.stageAttachment (host : Host) (s : Staging) (fileName mediaType : Option String)
    (content : Bytes) (context : AttachmentAccessContext) (w : World) :
    Except StoreException AttachmentRef × World :=
  let w := (s.toCall.cleanupExpired none w).2
  if isBlank context.subject then (.error (.valueError "附件访问主体无效。"), w) else
  match normalized host w.storage.settings fileName mediaType with
  | .error e => (.error e, w)
  | .ok (name, media) =>
    if s.mkdirFails || isDir s.uuid4 w.disk then (.error .osError, w) else
    match copied host w.storage.settings s name content with
    | .error e =>
      (.error e, { w with disk := s.rmtreeAt s.uuid4 (w.disk ++
        [{ name := s.uuid4, files := [("." ++ s.uuid4 ++ ".part", some s.partialFile)] }]) })
    | .ok () =>
      let d : Directory := { name := s.uuid4, files := [(name, some content)] }
      match AttachmentRef.checked {
        attachmentId := s.uuid4
        fileName := name
        mediaType := media
        sizeBytes := content.length
        sha256 := host.sha256 content } with
      | .error e => (.error e, { w with disk := w.disk ++ [d] })
      | .ok reference =>
        if s.manifestFails then
          (.error .osError, { w with disk := s.rmtreeAt s.uuid4 (w.disk ++ [d]) })
        else
          let record := stagedRecord w.storage.settings s reference context
          (.ok reference, { w with
            storage := { w.storage with records := w.storage.records ++ [record] }
            disk := w.disk ++ [{ d with manifest := some record.manifest }] })

/-! ## Restoring -/

/-- `_is_safe_file_name` -/
def isSafeFileName (fileName : String) : Bool :=
  baseName fileName ≠ "" && baseName fileName = fileName && !(baseName fileName).startsWith "."

def readManifest (settings : Settings) (d : Directory) : Option AttachmentRecord :=
  match d.manifest with
  | none => none
  | some m =>
    if d.name ≠ m.attachmentId then none else
    match AttachmentRef.checked m.reference with
    | .error _ => none
    | .ok reference =>
      if reference.attachmentId ≠ d.name ∨ reference.mediaType ∉ settings.allowedMediaTypes ∨
          isSafeFileName reference.fileName = false then none else
      match AttachmentAccessContext.make m.ownerSubject m.conversationId with
      | .error _ => none
      | .ok context => some {
          reference
          ownerSubject := context.subject
          conversationId := context.conversationId
          expiresAt := m.expiresAt
          status := m.status }

/-- The record of a directory, unless it is no longer valid. -/
def restoredRecord (host : Host) (settings : Settings) (now : Int) (disk : List Directory)
    (d : Directory) : Option AttachmentRecord :=
  match readManifest settings d with
  | none => none
  | some record =>
    if record.status ≠ .available ∨ record.expiresAt ≤ now ∨
        readVerifiedContent host disk record = none then none
    else some record

/-- `_restore_records`, in a new instance over the root. -/
def restoreRecords (host : Host) (settings : Settings) (c : Call) (disk : List Directory) : World where
  storage := { settings, records := disk.filterMap (restoredRecord host settings c.now disk) }
  disk := disk.filterMap fun d =>
    if (restoredRecord host settings c.now disk d).isSome then some d else c.rmtree d

end GoAgent.Attachments.Filesystem
