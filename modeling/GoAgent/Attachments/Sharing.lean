import GoAgent.Attachments.Access

/-!
# Instances that share a root

Several instances of `FilesystemAttachmentStorage` over one root, and several calls on each, whose
steps come between each other. A `Task` is a point in a call; `advance` goes to the next one. A step
is what no other call can divide: one visit of a loop, one removal, one write, one lookup in the
records.

A staging makes its directory before its record is there, and any cleanup in between removes the
directory: `sweep_strands`. `Task.Careful` says what the next step of a task needs to do no harm.

* `advance_spec` — what a careful step can do.
* `Safe.advance` — it keeps the root safe: what is staged, or about to be, is on disk and on record.
* `readable_until_closed` — in every careful run, the directory of an attachment that is being
  staged stays, and what was staged can be read until it is closed or expires.
-/

namespace GoAgent.Attachments.Filesystem

open GoAgent.Foundation

/-! ## Calls step by step -/

/-- What is called. -/
inductive Job
  | cleanup (now : Option Int)
  | read (attachment : Attachment) (context : AttachmentAccessContext)
  | consume (attachment : Attachment) (context : AttachmentAccessContext)
  | discard (attachment : Attachment) (context : AttachmentAccessContext)
  | stage (fileName mediaType : Option String) (content : Bytes)
      (context : AttachmentAccessContext)

/-- The reference time of the cleanup with which a call begins. -/
def Job.referenceTime (now : Int) : Job → Int
  | .cleanup (some reference) => reference
  | _ => now

/-- A point in a call, or in the construction of an instance. -/
inductive Task
  | begin (job : Job)
  /-- The first loop of a cleanup: the ids left, and the size of the dictionary it is over. -/
  | expiring (now : Int) (size : Nat) (pending : List String) (job : Job)
  | unlinking (id : String) (now : Int) (size : Nat) (pending : List String) (job : Job)
  | listing (job : Job)
  /-- The second loop. -/
  | sweeping (candidates : List String) (job : Job)
  | removing (name : String) (candidates : List String) (job : Job)
  | working (job : Job)
  /-- A record was found available, and its content is to be read. -/
  | verifying (id : String) (record : AttachmentRecord) (consumes : Bool)
  /-- The directory of a record is to be removed. -/
  | dropping (id : String) (result : AttachmentReadResult)
  | discarding (id : String)
  | forgetting (id : String)
  /-- The directory of a new attachment is made. -/
  | copying (id : String) (settings : Settings) (fileName mediaType : String) (content : Bytes)
      (context : AttachmentAccessContext)
  | registering (record : AttachmentRecord) (content : Bytes)
  /-- The manifest is written. -/
  | inserting (record : AttachmentRecord) (content : Bytes)
  | abandoning (id : String) (error : StoreException)
  | restoring (settings : Settings) (now : Int) (candidates : List String)
      (records : List AttachmentRecord)
  | rejecting (name : String) (settings : Settings) (now : Int) (candidates : List String)
      (records : List AttachmentRecord)
  /-- The call has returned, or raised. -/
  | done (response : Option Response)

/-- A staged attachment: the instance, its record and its content. -/
structure Held where
  storage : Nat
  record : AttachmentRecord
  content : Bytes

/-- A root with its instances and what runs on them. `staged` are the attachments that were
returned, `closed` those that were consumed or discarded, and `names` the names that directories
ever had. -/
structure Root where
  now : Int
  disk : List Directory
  storages : List Storage
  threads : List (Nat × Task) := []
  staged : List Held := []
  closed : List String := []
  names : List String

namespace Root

def recordsOf (s : Root) (k : Nat) : List AttachmentRecord :=
  match s.storages[k]? with
  | none => []
  | some storage => storage.records

def updateRecords (k : Nat) (f : List AttachmentRecord → List AttachmentRecord) (s : Root) : Root :=
  { s with storages := s.storages.modify k fun storage =>
      { storage with records := f storage.records } }

/-- `record.status = status` -/
def setStatus (k : Nat) (id : String) (status : AttachmentStatus) (s : Root) : Root :=
  s.updateRecords k fun records => records.map fun r => if r.id = id then { r with status } else r

/-- `self._records[record.id] = record` -/
def setRecord (record : AttachmentRecord) (records : List AttachmentRecord) :
    List AttachmentRecord :=
  if (lookup AttachmentRecord.id record.id records).isSome then
    replace AttachmentRecord.id record.id record records
  else records ++ [record]

def removeDir (c : Call) (id : String) (s : Root) : Root :=
  { s with disk := (c.removeAttachmentDir id s.disk).2 }

def rmtree (c : Call) (name : String) (s : Root) : Root :=
  { s with disk := c.rmtreeAt name s.disk }

/-- A file is written to a directory. -/
def writeFile (id : String) (file : String × Option Bytes) (s : Root) : Root :=
  { s with disk := s.disk.map fun d =>
      if d.name = id then { d with files := d.files ++ [file] } else d }

def writeManifest (id : String) (m : Manifest) (s : Root) : Root :=
  { s with disk := s.disk.map fun d => if d.name = id then { d with manifest := some m } else d }

end Root

section

variable (host : Host) (e : Staging) (k : Nat)

/-- The method itself, once it has cleaned up. -/
def work (s : Root) : Job → Task × Root
  | .cleanup _ => (.done (some .silent), s)
  | .read attachment context =>
    match attachmentId attachment with
    | none => (.done (some (.fetched missingResult)), s)
    | some id =>
      match recordForContext (s.recordsOf k) id context with
      | none => (.done (some (.fetched missingResult)), s)
      | some record =>
        if record.status ≠ .available then (.done (some (.fetched (terminalResult record))), s)
        else (.verifying id record false, s)
  | .consume attachment context =>
    match attachmentId attachment with
    | none => (.done (some (.fetched missingResult)), s)
    | some id =>
      match recordForContext (s.recordsOf k) id context with
      | none => (.done (some (.fetched missingResult)), s)
      | some record =>
        if record.status ≠ .available then (.done (some (.fetched (terminalResult record))), s)
        else (.verifying id record true, s)
  | .discard attachment context =>
    match attachmentId attachment with
    | none => (.done (some (.discarded false)), s)
    | some id =>
      match recordForContext (s.recordsOf k) id context with
      | none => (.done (some (.discarded false)), s)
      | some _ => (.discarding id, { s with closed := id :: s.closed })
  | .stage fileName mediaType content context =>
    match s.storages[k]? with
    | none => (.done none, s)
    | some storage =>
      if isBlank context.subject then
        (.done (some (.staged (.error (.valueError "附件访问主体无效。")))), s) else
      match normalized host storage.settings fileName mediaType with
      | .error x => (.done (some (.staged (.error x))), s)
      | .ok (name, media) =>
        if e.mkdirFails || isDir e.uuid4 s.disk then
          (.done (some (.staged (.error .osError))), s)
        else (.copying e.uuid4 storage.settings name media content context,
          { s with disk := s.disk ++ [{ name := e.uuid4 }], names := e.uuid4 :: s.names })

/-- The next step of a task of the `k`-th instance. -/
def advance (s : Root) : Task → Task × Root
  | .begin job =>
    (.expiring (job.referenceTime e.now) (s.recordsOf k).length
      ((s.recordsOf k).map AttachmentRecord.id) job, s)
  | .expiring now size pending job =>
    -- a dictionary that has changed its size ends the loop over it
    if (s.recordsOf k).length ≠ size then (.done none, s) else
    match pending with
    | [] => (.listing job, s)
    | id :: pending =>
      match lookup AttachmentRecord.id id (s.recordsOf k) with
      | none => (.expiring now size pending job, s)
      | some record =>
        if record.status ≠ .available ∨ now < record.expiresAt then
          (.expiring now size pending job, s)
        else (.unlinking id now size pending job, s.setStatus k id .expired)
  | .unlinking id now size pending job => (.expiring now size pending job, s.removeDir e.toCall id)
  | .listing job => (.sweeping (s.disk.map Directory.name) job, s)
  | .sweeping [] job => (.working job, s)
  | .sweeping (name :: candidates) job =>
    if isDir name s.disk ∧ name ∉ (s.recordsOf k).map AttachmentRecord.id then
      (.removing name candidates job, s)
    else (.sweeping candidates job, s)
  | .removing name candidates job => (.sweeping candidates job, s.rmtree e.toCall name)
  | .working job => work host e k s job
  | .verifying id record consumes =>
    match readVerifiedContent host s.disk record with
    | none =>
      (.dropping id (terminalResult { record with status := .missing }), s.setStatus k id .missing)
    | some content =>
      if consumes then
        (.dropping id (availableResult record content),
          { s.setStatus k id .consumed with closed := id :: s.closed })
      else (.done (some (.fetched (availableResult record content))), s)
  | .dropping id result => (.done (some (.fetched result)), s.removeDir e.toCall id)
  | .discarding id => (.forgetting id, s.removeDir e.toCall id)
  | .forgetting id =>
    if (lookup AttachmentRecord.id id (s.recordsOf k)).isSome then
      (.done (some (.discarded true)), s.updateRecords k fun records => records.filter (·.id ≠ id))
    else (.done none, s)
  | .copying id settings name media content context =>
    match copied host settings e name content with
    | .error x => (.abandoning id x, s)
    | .ok () =>
      if isDir id s.disk = false then (.abandoning id .osError, s) else
      match AttachmentRef.checked {
        attachmentId := id
        fileName := name
        mediaType := media
        sizeBytes := content.length
        sha256 := host.sha256 content } with
      | .error x => (.done (some (.staged (.error x))), s.writeFile id (name, some content))
      | .ok reference =>
        (.registering (stagedRecord settings e reference context) content,
          s.writeFile id (name, some content))
  | .registering record content =>
    if e.manifestFails || !isDir record.id s.disk then (.abandoning record.id .osError, s)
    else (.inserting record content, s.writeManifest record.id record.manifest)
  | .inserting record content =>
    (.done (some (.staged (.ok record.reference))),
      { s.updateRecords k (Root.setRecord record) with
        staged := s.staged ++ [{ storage := k, record, content }] })
  | .abandoning id x => (.done (some (.staged (.error x))), s.rmtree e.toCall id)
  | .restoring settings _ [] records =>
    (.done (some .silent), { s with storages := s.storages ++ [{ settings, records }] })
  | .restoring settings now (name :: candidates) records =>
    match lookup Directory.name name s.disk with
    | none => (.restoring settings now candidates records, s)
    | some d =>
      match restoredRecord host settings now s.disk d with
      | none => (.rejecting name settings now candidates records, s)
      | some record => (.restoring settings now candidates (records ++ [record]), s)
  | .rejecting name settings now candidates records =>
    (.restoring settings now candidates records, s.rmtree e.toCall name)
  | .done response => (.done response, s)

end

/-- What happens to a root: an instance is called, a new instance is constructed, or one of the
tasks takes its next step. -/
inductive Happening
  | call (k : Nat) (job : Job)
  | construct (settings : Settings) (now : Int)
  | step (i : Nat) (e : Staging)

def happen (host : Host) (s : Root) : Happening → Root
  | .call k job => { s with threads := s.threads ++ [(k, .begin job)] }
  | .construct settings now => { s with
      now
      threads := s.threads ++ [(0, .restoring settings now (s.disk.map Directory.name) [])] }
  | .step i e =>
    match s.threads[i]? with
    | none => s
    | some (k, task) =>
      let s := { s with now := e.now }
      let (task, s) := advance host e k s task
      { s with threads := s.threads.set i (k, task) }

/-! ## Attachments in use -/

/-- The attachment a task is staging, before its manifest is written. -/
def Task.early : Task → Option String
  | .copying id .. => some id
  | .registering record _ => some record.id
  | _ => none

/-- The attachment a task is staging. -/
def Task.staging : Task → Option String
  | .inserting record _ => some record.id
  | task => task.early

/-- The attachment a task is about to remove. -/
def Task.target : Task → Option String
  | .unlinking id .. | .removing id .. | .dropping id _ | .discarding id | .forgetting id
  | .abandoning id _ | .rejecting id .. => some id
  | _ => none

/-- Some task is staging the attachment. -/
def Underway (s : Root) (id : String) : Prop := ∃ t ∈ s.threads, t.2.staging = some id

/-- The attachment is being staged, or is staged and not expired, and nobody has consumed or
discarded it. -/
def InUse (s : Root) (id : String) : Prop :=
  id ∉ s.closed ∧
    ((∃ x ∈ s.staged, x.record.id = id ∧ s.now < x.record.expiresAt) ∨ Underway s id)

/-- What the next step of a task needs so that it does no harm: a record that a cleanup finds over
is over by the clock and no longer being staged, unless it was closed; a directory that a cleanup
has no record of, or that a new instance finds no valid manifest in, is not in use; and the name of
a staged file is not taken for a file being written. -/
def Task.Careful (host : Host) (s : Root) (k : Nat) : Task → Prop
  | .expiring now _ (id :: _) _ => ∀ r, lookup AttachmentRecord.id id (s.recordsOf k) = some r →
      r.status = .available → r.expiresAt ≤ now →
        id ∈ s.closed ∨ r.expiresAt ≤ s.now ∧ ¬Underway s id
  | .sweeping (name :: _) _ => isDir name s.disk = true →
      name ∉ (s.recordsOf k).map AttachmentRecord.id → ¬InUse s name
  | .restoring settings now (name :: _) _ => ∀ d, lookup Directory.name name s.disk = some d →
      restoredRecord host settings now s.disk d = none → ¬InUse s name
  | .working (.stage fileName ..) => (baseName (fileName.getD "")).endsWith ".part" = false
  | _ => True

def Careful (host : Host) (s : Root) : Happening → Prop
  | .step i e => ∀ k task, s.threads[i]? = some (k, task) →
      task.Careful host { s with now := e.now } k
  | _ => True

/-- What is left by a removal that does not succeed has no other manifest. -/
def Call.Sound (c : Call) : Prop :=
  ∀ d d', c.leftover d = some d' → d'.manifest = none ∨ d'.manifest = d.manifest

/-- The clock does not go back, and a new id is new. -/
def Proper (s : Root) : Happening → Prop
  | .call k _ => k < s.storages.length
  | .construct _ now => s.now ≤ now
  | .step _ e =>
    s.now ≤ e.now ∧ isHexId false e.uuid4 = true ∧ e.uuid4 ∉ s.names ∧ e.toCall.Sound

structure Happens (host : Host) (s : Root) (h : Happening) (s' : Root) : Prop where
  result : s' = happen host s h
  proper : Proper s h

/-! ## The invariant -/

variable {host : Host} {s s' : Root} {k i j : Nat} {task task' : Task} {id : String}
  {record r : AttachmentRecord} {content : Bytes} {e : Staging} {d : Directory}
  {disk : List Directory} {records : List AttachmentRecord}

/-- The record is that of a staged attachment, or is about to be. -/
def Known (s : Root) (r : AttachmentRecord) : Prop :=
  (∃ x ∈ s.staged, x.record = r) ∨ ∃ k content, (k, .inserting r content) ∈ s.threads

def Early (s : Root) (id : String) : Prop := ∃ t ∈ s.threads, t.2.early = some id

/-- The record says of the attachment what the known ones say. -/
structure Agrees (s : Root) (r : AttachmentRecord) : Prop where
  named : r.id ∈ s.names
  late : ¬Early s r.id
  same : ∀ r', Known s r' → r'.id = r.id → r.reference = r'.reference ∧ r.expiresAt = r'.expiresAt

structure Valid (s : Root) (r : AttachmentRecord) : Prop where
  resolved : resolveAttachmentDir r.id = some r.id
  agrees : Agrees s r

/-- An id that was given out for an attachment that is not yet staged. -/
structure Assigned (s : Root) (id : String) : Prop where
  named : id ∈ s.names
  resolved : resolveAttachmentDir id = some id
  new : ∀ x ∈ s.staged, x.record.id ≠ id

/-- What a task relies on. -/
def Task.Fits (host : Host) (s : Root) : Task → Prop
  | .unlinking id .. | .dropping id _ | .discarding id => resolveAttachmentDir id = some id
  | .verifying id record _ => record.id = id ∧ Valid s record
  | .copying id _ name _ _ _ => Assigned s id ∧ id ∉ s.closed ∧
      (name.endsWith ".part" = false ∧ name.startsWith "." = false) ∧
      lookup Directory.name id s.disk = some { name := id }
  | .registering record content => Assigned s record.id ∧ record.id ∉ s.closed ∧
      record.status = .available ∧ readVerifiedContent host s.disk record = some content
  | .inserting record content => Assigned s record.id ∧ record.status = .available ∧
      (record.id ∉ s.closed → readVerifiedContent host s.disk record = some content)
  | .restoring _ _ _ records | .rejecting _ _ _ _ records => ∀ r ∈ records, Valid s r
  | _ => True

/-- The record that a manifest is of. -/
def Manifest.toRecord (m : Manifest) : AttachmentRecord where
  reference := m.reference
  ownerSubject := m.ownerSubject
  conversationId := m.conversationId
  expiresAt := m.expiresAt
  status := m.status

structure Safe (host : Host) (s : Root) : Prop where
  named : ∀ d ∈ s.disk, d.name ∈ s.names
  closed : ∀ id ∈ s.closed, id ∈ s.names
  records : ∀ k, ∀ r ∈ s.recordsOf k, Valid s r
  manifests : ∀ d ∈ s.disk, ∀ m, d.manifest = some m → m.toRecord.id = d.name → Agrees s m.toRecord
  fits : ∀ {i k : Nat} {task : Task}, s.threads[i]? = some (k, task) → task.Fits host s
  targets : ∀ t ∈ s.threads, ∀ id, t.2.target = some id → id ∈ s.names ∧ ¬InUse s id
  hosted : ∀ t ∈ s.threads, t.2.staging ≠ none → t.1 < s.storages.length
  alone : ∀ {i j : Nat} {t u : Nat × Task} {id : String}, s.threads[i]? = some t →
    s.threads[j]? = some u → t.2.staging = some id → u.2.staging = some id → i = j
  staged : ∀ x ∈ s.staged, x.record.id ∈ s.names ∧
    resolveAttachmentDir x.record.id = some x.record.id ∧ x.record.status = .available ∧
    (x.record.id ∉ s.closed → s.now < x.record.expiresAt →
      readVerifiedContent host s.disk x.record = some x.content ∧
      lookup AttachmentRecord.id x.record.id (s.recordsOf x.storage) = some x.record)

/-- The root once the `i`-th task has come to `task`. -/
def Root.put (i k : Nat) (task : Task) (s : Root) : Root :=
  { s with threads := s.threads.set i (k, task) }

/-- What the step of a task to `task'` can do to the rest of the root `s`: it leaves `u`. -/
structure Advance (host : Host) (s : Root) (i k : Nat) (task task' : Task) (u : Root) : Prop where
  threads : u.threads = s.threads
  now : u.now = s.now
  names : s.names ⊆ u.names
  staging : ∀ id, task'.staging = some id → task.staging = some id ∨ id ∉ s.names
  early : ∀ id, task'.early = some id → task.early = some id ∨ id ∉ s.names
  inserts : ∀ r c, task' = .inserting r c → task.early = some r.id
  staged : u.staged = s.staged ∨ ∃ r c, task = .inserting r c ∧
    u.staged = s.staged ++ [⟨k, r, c⟩] ∧ lookup AttachmentRecord.id r.id (u.recordsOf k) = some r ∧
    u.disk = s.disk
  closed : s.closed ⊆ u.closed ∧ ∀ id ∈ u.closed, id ∈ s.closed ∨ id ∈ s.names ∧ ¬Early s id
  named : ∀ d ∈ u.disk, d.name ∈ u.names
  disk : ∀ id, InUse (u.put i k task') id → task.staging ≠ some id → task'.staging ≠ some id →
    lookup Directory.name id u.disk = lookup Directory.name id s.disk
  manifests : ∀ d ∈ u.disk, ∀ m, d.manifest = some m →
    (∃ d₀ ∈ s.disk, d₀.name = d.name ∧ d₀.manifest = some m) ∨
      ∃ r c, task' = .inserting r c ∧ m = r.manifest
  records : ∀ j, ∀ r ∈ u.recordsOf j,
    (∃ r₀, Valid s r₀ ∧ r.reference = r₀.reference ∧ r.expiresAt = r₀.expiresAt) ∨
      ∃ c, task = .inserting r c
  lookups : ∀ x ∈ s.staged, InUse (u.put i k task') x.record.id →
    lookup AttachmentRecord.id x.record.id (s.recordsOf x.storage) = some x.record →
      lookup AttachmentRecord.id x.record.id (u.recordsOf x.storage) = some x.record
  fits : task'.Fits host (u.put i k task')
  targets : ∀ id, task'.target = some id → id ∈ u.names ∧ ¬InUse (u.put i k task') id
  storages : s.storages.length ≤ u.storages.length
  hosted : task'.staging ≠ none → k < u.storages.length

/-! ## What a step keeps -/

/-- From `s` to `s'` no attachment that has a name comes into use. -/
structure Grows (s s' : Root) : Prop where
  names : s.names ⊆ s'.names
  early : ∀ id, Early s' id → Early s id ∨ id ∉ s.names
  known : ∀ r, Known s' r → Known s r ∨ Early s r.id
  inUse : ∀ id, InUse s' id → InUse s id ∨ id ∉ s.names

theorem Agrees.grows (hg : Grows s s') (h : Agrees s r) : Agrees s' r where
  named := hg.names h.named
  late hearly := (hg.early _ hearly).elim h.late fun hnew => hnew h.named
  same r' hr' hid := (hg.known r' hr').elim (fun hknown => h.same r' hknown hid)
    fun hearly => absurd (hid ▸ hearly) h.late

theorem Valid.grows (hg : Grows s s') (h : Valid s r) : Valid s' r :=
  ⟨h.resolved, h.agrees.grows hg⟩

theorem Agrees.of_same (h : Agrees s r) {r' : AttachmentRecord} (href : r'.reference = r.reference)
    (hexp : r'.expiresAt = r.expiresAt) : Agrees s r' := by
  have hid : r'.id = r.id := congrArg AttachmentRef.attachmentId href
  refine ⟨hid ▸ h.named, hid ▸ h.late, fun r'' hknown he => ?_⟩
  obtain ⟨href', hexp'⟩ := h.same r'' hknown (he.trans hid)
  exact ⟨href.trans href', hexp.trans hexp'⟩

theorem Valid.of_same (h : Valid s r) {r' : AttachmentRecord} (href : r'.reference = r.reference)
    (hexp : r'.expiresAt = r.expiresAt) : Valid s r' := by
  have hid : r'.id = r.id := congrArg AttachmentRef.attachmentId href
  exact ⟨hid ▸ h.resolved, h.agrees.of_same href hexp⟩

theorem staging_of_early (h : task.early = some id) : task.staging = some id := by
  cases task <;> first | exact h | cases h

theorem not_inUse (hg : Grows s s') (h : id ∈ s.names ∧ ¬InUse s id) :
    id ∈ s'.names ∧ ¬InUse s' id :=
  ⟨hg.names h.1, fun huse => (hg.inUse id huse).elim h.2 fun hnew => hnew h.1⟩

theorem mem_of_put {t : Nat × Task} (h : t ∈ (s.put i k task').threads) :
    t ∈ s.threads ∨ t = (k, task') := List.mem_or_eq_of_mem_set h

theorem grows_of_advance (hi : s.threads[i]? = some (k, task)) {u : Root}
    (ha : Advance host s i k task task' u) : Grows s (u.put i k task') := by
  have hmem : (k, task) ∈ s.threads := List.mem_of_getElem? hi
  have hthreads {t : Nat × Task} (ht : t ∈ (u.put i k task').threads) :
      t ∈ s.threads ∨ t = (k, task') := ha.threads ▸ mem_of_put ht
  refine ⟨ha.names, ?_, ?_, ?_⟩
  · rintro id ⟨t, ht, hearly⟩
    rcases hthreads ht with ht | rfl
    · exact Or.inl ⟨t, ht, hearly⟩
    · exact (ha.early id hearly).imp_left fun h => ⟨_, hmem, h⟩
  · rintro r (⟨x, hx, rfl⟩ | ⟨j, c, ht⟩)
    · rcases ha.staged with hsame | ⟨r, c, rfl, hnew, -⟩
      · exact Or.inl (Or.inl ⟨x, hsame ▸ hx, rfl⟩)
      · change x ∈ u.staged at hx
        rw [hnew] at hx
        rcases List.mem_append.1 hx with hx | hx
        · exact Or.inl (Or.inl ⟨x, hx, rfl⟩)
        · rw [List.mem_singleton.1 hx]
          exact Or.inl (Or.inr ⟨k, c, hmem⟩)
    · rcases hthreads ht with ht | heq
      · exact Or.inl (Or.inr ⟨j, c, ht⟩)
      · exact Or.inr ⟨_, hmem, ha.inserts r c (Prod.mk.inj heq).2.symm⟩
  · rintro id ⟨hclosed, huse⟩
    have hopen : id ∉ s.closed := fun h => hclosed (ha.closed.1 h)
    rcases huse with ⟨x, hx, rfl, hnow⟩ | ⟨t, ht, hstaging⟩
    · rcases ha.staged with hsame | ⟨r, c, rfl, hnew, -⟩
      · exact Or.inl ⟨hopen, Or.inl ⟨x, hsame ▸ hx, rfl, ha.now ▸ hnow⟩⟩
      · change x ∈ u.staged at hx
        rw [hnew] at hx
        rcases List.mem_append.1 hx with hx | hx
        · exact Or.inl ⟨hopen, Or.inl ⟨x, hx, rfl, ha.now ▸ hnow⟩⟩
        · rw [List.mem_singleton.1 hx]
          exact Or.inl ⟨by rwa [List.mem_singleton.1 hx] at hopen, Or.inr ⟨_, hmem, rfl⟩⟩
    · rcases hthreads ht with ht | rfl
      · exact Or.inl ⟨hopen, Or.inr ⟨t, ht, hstaging⟩⟩
      · exact (ha.staging id hstaging).imp_left fun h => ⟨hopen, Or.inr ⟨_, hmem, h⟩⟩

theorem readVerifiedContent_congr {disk disk' : List Directory}
    (hid : resolveAttachmentDir record.id = some record.id)
    (h : lookup Directory.name record.id disk' = lookup Directory.name record.id disk) :
    readVerifiedContent host disk' record = readVerifiedContent host disk record := by
  unfold readVerifiedContent
  rw [hid]
  dsimp only
  rw [h]

theorem Assigned.of_advance {u : Root} (ha : Advance host s i k task task' u)
    (h : Assigned s id) (hne : task.staging ≠ some id) : Assigned (u.put i k task') id := by
  refine ⟨ha.names h.named, h.resolved, fun x hx => ?_⟩
  rcases ha.staged with hsame | ⟨r, c, rfl, hnew, -⟩
  · exact h.new x (hsame ▸ hx)
  · change x ∈ u.staged at hx
    rw [hnew] at hx
    rcases List.mem_append.1 hx with hx | hx
    · exact h.new x hx
    · rw [List.mem_singleton.1 hx]
      exact fun he => hne (congrArg some he)

/-- A task that stages nothing relies on nothing that changes. -/
theorem Task.Fits.grows (hg : Grows s s') (hst : task.staging = none)
    (h : task.Fits host s) : task.Fits host s' := by
  cases task with
  | verifying => exact ⟨h.1, h.2.grows hg⟩
  | restoring | rejecting => exact fun r hr => (h r hr).grows hg
  | copying | registering | inserting => cases hst
  | begin | expiring | unlinking | listing | sweeping | removing | working | dropping | discarding |
    forgetting | abandoning | done => exact h

/-- What another task relies on, it still can. -/
theorem Fits.of_advance {u : Root} {other : Task} {l : Nat} (hi : s.threads[i]? = some (k, task))
    (ha : Advance host s i k task task' u) (hj : s.threads[j]? = some (l, other)) (hij : j ≠ i)
    (hfits : other.Fits host s)
    (hne : ∀ id, other.staging = some id → task.staging ≠ some id) :
    other.Fits host (u.put i k task') := by
  have hg := grows_of_advance hi ha
  have hmem : (l, other) ∈ (u.put i k task').threads := by
    refine List.mem_of_getElem? (i := j) ?_
    show (u.threads.set i (k, task'))[j]? = _
    rw [List.getElem?_set_ne (Ne.symm hij), ha.threads, hj]
  have hdisk {id : String} (hst : other.staging = some id) (hass : Assigned s id)
      (hopen : id ∉ u.closed) :
      lookup Directory.name id u.disk = lookup Directory.name id s.disk := by
    refine ha.disk id ⟨hopen, Or.inr ⟨_, hmem, hst⟩⟩ (hne id hst) fun hst' => ?_
    exact (ha.staging id hst').elim (hne id hst) fun hnew => hnew hass.named
  have hopen {id : String} (hearly : other.early = some id) (h : id ∉ s.closed) : id ∉ u.closed :=
    fun hc => (ha.closed.2 id hc).elim h fun hlate => hlate.2 ⟨_, List.mem_of_getElem? hj, hearly⟩
  cases other with
  | copying id =>
    obtain ⟨hass, hclosed, hname, hdir⟩ := hfits
    have hclosed' := hopen rfl hclosed
    exact ⟨hass.of_advance ha (hne id rfl), hclosed', hname, (hdisk rfl hass hclosed').trans hdir⟩
  | registering r c =>
    obtain ⟨hass, hclosed, hstatus, hread⟩ := hfits
    have hclosed' := hopen rfl hclosed
    refine ⟨hass.of_advance ha (hne r.id rfl), hclosed', hstatus, ?_⟩
    exact (readVerifiedContent_congr hass.resolved (hdisk rfl hass hclosed')).trans hread
  | inserting r c =>
    obtain ⟨hass, hstatus, hread⟩ := hfits
    refine ⟨hass.of_advance ha (hne r.id rfl), hstatus, fun hclosed' => ?_⟩
    rw [← hread fun h => hclosed' (ha.closed.1 h)]
    exact readVerifiedContent_congr hass.resolved (hdisk rfl hass hclosed')
  | begin | expiring | unlinking | listing | sweeping | removing | working | verifying | dropping |
    discarding | forgetting | abandoning | restoring | rejecting | done =>
    exact Task.Fits.grows hg rfl hfits

theorem assigned_of_staging (h : task.Fits host s) (hst : task.staging = some id) :
    Assigned s id := by
  cases task with
  | copying | registering | inserting =>
    cases hst
    exact h.1
  | begin | expiring | unlinking | listing | sweeping | removing | working | verifying | dropping |
    discarding | forgetting | abandoning | restoring | rejecting | done => cases hst

theorem mem_put_threads {t : Nat × Task} (h : t ∈ (s.put i k task').threads) :
    (∃ j, j ≠ i ∧ s.threads[j]? = some t) ∨ t = (k, task') := by
  obtain ⟨j, hj⟩ := List.mem_iff_getElem?.1 h
  change (s.threads.set i (k, task'))[j]? = some t at hj
  rw [List.getElem?_set] at hj
  split_ifs at hj with hij hlt
  · exact Or.inr (Option.some.inj hj).symm
  · exact Or.inl ⟨j, fun h => hij h.symm, hj⟩

namespace Safe

theorem known_of_staging (h : Safe host s) (hi : s.threads[i]? = some (k, task))
    (hst : task.staging = some id) (hr : Known s r) (hid : r.id = id) :
    ∃ c, task = .inserting r c := by
  rcases hr with ⟨x, hx, rfl⟩ | ⟨j, c, hmem⟩
  · exact absurd hid ((assigned_of_staging (h.fits hi) hst).new x hx)
  · obtain ⟨l, hl⟩ := List.mem_iff_getElem?.1 hmem
    obtain rfl := h.alone hi hl hst (congrArg some hid)
    rw [hi] at hl
    exact ⟨c, (Prod.mk.inj (Option.some.inj hl)).2⟩

/-- A task that has written its manifest is the only one at its attachment. -/
theorem late_of_put {u : Root} (h : Safe host s) (hi : s.threads[i]? = some (k, task))
    (ha : Advance host s i k task task' u) (hst : task.staging = some id)
    (hlate : task'.early ≠ some id) : ¬Early (u.put i k task') id := by
  rintro ⟨t, ht, hearly⟩
  rcases mem_put_threads ht with ⟨j, hij, hj⟩ | rfl
  · rw [ha.threads] at hj
    exact hij (h.alone hj hi (staging_of_early hearly) hst)
  · exact hlate hearly

theorem valid_of_inserting {u : Root} {c : Bytes} (h : Safe host s)
    (hi : s.threads[i]? = some (k, .inserting r c))
    (ha : Advance host s i k (.inserting r c) task' u) : Valid (u.put i k task') r := by
  have hg := grows_of_advance hi ha
  obtain ⟨hass, -⟩ := h.fits hi
  have hearly : task'.early ≠ some r.id := fun hearly =>
    (ha.early r.id hearly).elim (fun h => (by cases h)) fun hnew => hnew hass.named
  refine ⟨hass.resolved, ha.names hass.named, h.late_of_put hi ha rfl hearly, ?_⟩
  intro r' hr' hid
  rcases hg.known r' hr' with hknown | ⟨t, ht, ht'⟩
  · obtain ⟨c', hc'⟩ := h.known_of_staging hi rfl hknown hid
    obtain ⟨rfl, -⟩ := Task.inserting.inj hc'
    exact ⟨rfl, rfl⟩
  · obtain ⟨j, hj⟩ := List.mem_iff_getElem?.1 ht
    obtain rfl := h.alone hi hj rfl ((staging_of_early ht').trans (congrArg some hid))
    rw [hi] at hj
    cases hj
    cases ht'

theorem agrees_of_manifest {u : Root} {c : Bytes} (h : Safe host s)
    (hi : s.threads[i]? = some (k, task)) (ha : Advance host s i k task (.inserting r c) u) :
    Agrees (u.put i k (.inserting r c)) r := by
  have hearly := ha.inserts r c rfl
  have hst := staging_of_early hearly
  have hass := assigned_of_staging (h.fits hi) hst
  refine ⟨ha.names hass.named, h.late_of_put hi ha hst fun h => (by cases h), ?_⟩
  rintro r' (⟨x, hx, rfl⟩ | ⟨j, c', ht⟩) hid
  · rcases ha.staged with hsame | ⟨r₁, c₁, rfl, -⟩
    · exact absurd hid (hass.new x (hsame ▸ hx))
    · cases hearly
  · rcases mem_put_threads ht with ⟨j, hij, hj⟩ | heq
    · rw [ha.threads] at hj
      exact absurd (h.alone hj hi (congrArg some hid) hst) hij
    · cases heq
      exact ⟨rfl, rfl⟩

/-- **A step keeps the root safe.** -/
theorem advance {u : Root} (h : Safe host s) (hi : s.threads[i]? = some (k, task))
    (ha : Advance host s i k task task' u) : Safe host (u.put i k task') := by
  have hg := grows_of_advance hi ha
  have hthreads {j : Nat} {t : Nat × Task} (hj : (u.put i k task').threads[j]? = some t) :
      (j ≠ i ∧ s.threads[j]? = some t) ∨ j = i ∧ t = (k, task') := by
    change (u.threads.set i (k, task'))[j]? = some t at hj
    rw [ha.threads, List.getElem?_set] at hj
    split_ifs at hj with hij hlt
    · exact Or.inr ⟨hij.symm, (Option.some.inj hj).symm⟩
    · exact Or.inl ⟨fun h => hij h.symm, hj⟩
  have hold (x : Held) (hx : x ∈ s.staged) (hx' : x ∈ u.staged) :
      x.record.id ∈ u.names ∧ resolveAttachmentDir x.record.id = some x.record.id ∧
        x.record.status = .available ∧ (x.record.id ∉ u.closed → u.now < x.record.expiresAt →
          readVerifiedContent host u.disk x.record = some x.content ∧
          lookup AttachmentRecord.id x.record.id (u.recordsOf x.storage) = some x.record) := by
    obtain ⟨hnamed, hres, hstatus, hkeep⟩ := h.staged x hx
    refine ⟨ha.names hnamed, hres, hstatus, fun hopen hnow => ?_⟩
    have huse : InUse (u.put i k task') x.record.id := ⟨hopen, Or.inl ⟨x, hx', rfl, hnow⟩⟩
    have hne : task.staging ≠ some x.record.id := fun hst =>
      (assigned_of_staging (h.fits hi) hst).new x hx rfl
    have hne' : task'.staging ≠ some x.record.id := fun hst =>
      (ha.staging _ hst).elim hne fun hnew => hnew hnamed
    obtain ⟨hread, hlookup⟩ := hkeep (fun hc => hopen (ha.closed.1 hc)) (ha.now ▸ hnow)
    exact ⟨(readVerifiedContent_congr hres (ha.disk _ huse hne hne')).trans hread,
      ha.lookups x hx huse hlookup⟩
  refine ⟨ha.named, ?_, ?_, ?_, ?_, ?_, ?_, ?_, ?_⟩
  · intro id hid
    exact ha.names ((ha.closed.2 id hid).elim (h.closed id) And.left)
  · intro j r hr
    rcases ha.records j r hr with ⟨r₀, hv, href, hexp⟩ | ⟨c, rfl⟩
    · exact (hv.grows hg).of_same href hexp
    · exact h.valid_of_inserting hi ha
  · intro d hd m hm hid
    rcases ha.manifests d hd m hm with ⟨d₀, hd₀, hname, hm₀⟩ | ⟨r, c, rfl, rfl⟩
    · exact (h.manifests d₀ hd₀ m hm₀ (hid.trans hname.symm)).grows hg
    · exact (h.agrees_of_manifest hi ha).of_same rfl rfl
  · intro j l other hj
    rcases hthreads hj with ⟨hij, hj⟩ | ⟨rfl, heq⟩
    · exact Fits.of_advance hi ha hj hij (h.fits hj) fun id hst hst' =>
        hij (h.alone hj hi hst hst')
    · cases heq
      exact ha.fits
  · intro t ht id htarget
    obtain ⟨j, hj⟩ := List.mem_iff_getElem?.1 ht
    rcases hthreads hj with ⟨-, hj⟩ | ⟨-, rfl⟩
    · exact not_inUse hg (h.targets t (List.mem_of_getElem? hj) id htarget)
    · exact ha.targets id htarget
  · intro t ht hst
    obtain ⟨j, hj⟩ := List.mem_iff_getElem?.1 ht
    rcases hthreads hj with ⟨-, hj⟩ | ⟨-, rfl⟩
    · exact Nat.lt_of_lt_of_le (h.hosted t (List.mem_of_getElem? hj) hst) ha.storages
    · exact ha.hosted hst
  · intro a b t v id ht hv hst hst'
    have hown {j : Nat} {t : Nat × Task} (hj : s.threads[j]? = some t) (hij : j ≠ i)
        (hst : t.2.staging = some id) : task'.staging ≠ some id := fun hst' =>
      (ha.staging id hst').elim (fun h' => hij (h.alone hj hi hst h'))
        fun hnew => hnew (assigned_of_staging (h.fits hj) hst).named
    rcases hthreads ht with ⟨hai, hold₁⟩ | ⟨ha₁, rfl⟩
    · rcases hthreads hv with ⟨-, hold₂⟩ | ⟨-, rfl⟩
      · exact h.alone hold₁ hold₂ hst hst'
      · exact absurd hst' (hown hold₁ hai hst)
    · rcases hthreads hv with ⟨hbi, hold₂⟩ | ⟨hb₁, -⟩
      · exact absurd hst (hown hold₂ hbi hst')
      · exact ha₁.trans hb₁.symm
  · intro x hx
    change x ∈ u.staged at hx
    rcases ha.staged with hsame | ⟨r, c, rfl, hnew, hlookup, hdisk⟩
    · exact hold x (hsame ▸ hx) hx
    · have hx' := hx
      rw [hnew] at hx
      rcases List.mem_append.1 hx with hx | hx
      · exact hold x hx hx'
      · obtain rfl := List.mem_singleton.1 hx
        obtain ⟨hass, hstatus, hread⟩ := h.fits hi
        refine ⟨ha.names hass.named, hass.resolved, hstatus, fun hopen _ => ⟨?_, hlookup⟩⟩
        show readVerifiedContent host u.disk r = some c
        rw [hdisk]
        exact hread fun hc => hopen (ha.closed.1 hc)

end Safe

/-! ## What the steps do -/

theorem not_staging_of_early (h : task.staging = none) : task.early ≠ some id := fun he => by
  rw [staging_of_early he] at h
  cases h

/-- An attachment that is in use after a task stopped staging was in use before. -/
theorem inUse_of_put {u : Root} (hthreads : u.threads = s.threads) (hnow : u.now = s.now)
    (hstaged : u.staged = s.staged) (hclosed : s.closed ⊆ u.closed) (hst : task'.staging = none)
    (h : InUse (u.put i k task') id) : InUse s id := by
  refine ⟨fun hc => h.1 (hclosed hc), h.2.imp ?_ ?_⟩
  · rintro ⟨x, hx, he, hlt⟩
    exact ⟨x, hstaged ▸ hx, he, hnow ▸ hlt⟩
  · rintro ⟨t, ht, ht'⟩
    rcases mem_of_put ht with hmem | rfl
    · exact ⟨t, hthreads ▸ hmem, ht'⟩
    · rw [hst] at ht'
      cases ht'

/-- What a change of the disk has kept: the directories of all attachments in use but those the task
is staging, and no directory has got a manifest. -/
structure KeepsDisk (s : Root) (task : Task) (closed : List String) (disk : List Directory) :
    Prop where
  lookup : ∀ id, InUse s id → id ∉ closed → task.staging ≠ some id →
    lookup Directory.name id disk = lookup Directory.name id s.disk
  old : ∀ d ∈ disk, ∃ d₀ ∈ s.disk, d₀.name = d.name ∧
    (d.manifest = none ∨ d.manifest = d₀.manifest)

/-- What a change of the records has kept. -/
structure KeepsRecords (s u : Root) : Prop where
  valid : ∀ j, ∀ r ∈ u.recordsOf j,
    ∃ r₀, Valid s r₀ ∧ r.reference = r₀.reference ∧ r.expiresAt = r₀.expiresAt
  lookup : ∀ x ∈ s.staged, InUse s x.record.id → x.record.id ∉ u.closed →
    lookup AttachmentRecord.id x.record.id (s.recordsOf x.storage) = some x.record →
      lookup AttachmentRecord.id x.record.id (u.recordsOf x.storage) = some x.record

theorem KeepsDisk.refl {closed : List String} : KeepsDisk s task closed s.disk :=
  ⟨fun _ _ _ _ => rfl, fun d hd => ⟨d, hd, rfl, Or.inr rfl⟩⟩

theorem KeepsRecords.refl (h : Safe host s) : KeepsRecords s s :=
  ⟨fun j r hr => ⟨r, h.records j r hr, rfl, rfl⟩, fun _ _ _ _ hr => hr⟩

theorem grows_of_put {u : Root} (hthreads : u.threads = s.threads) (hnow : u.now = s.now)
    (hnames : u.names = s.names) (hstaged : u.staged = s.staged) (hclosed : s.closed ⊆ u.closed)
    (hst : task'.staging = none) : Grows s (u.put i k task') where
  names _ hid := hnames ▸ hid
  early id := by
    rintro ⟨t, ht, hearly⟩
    rcases mem_of_put ht with hmem | rfl
    · exact Or.inl ⟨t, hthreads ▸ hmem, hearly⟩
    · exact absurd hearly (not_staging_of_early hst)
  known r := by
    rintro (⟨x, hx, he⟩ | ⟨j, c, ht⟩)
    · exact Or.inl (Or.inl ⟨x, hstaged ▸ hx, he⟩)
    · rcases mem_of_put ht with hmem | heq
      · exact Or.inl (Or.inr ⟨j, c, hthreads ▸ hmem⟩)
      · rw [← (Prod.mk.inj heq).2] at hst
        cases hst
  inUse _ huse := Or.inl (inUse_of_put hthreads hnow hstaged hclosed hst huse)

/-- A step after which the task stages nothing, and which stages nothing. -/
theorem Advance.mild {u : Root} (h : Safe host s) (hthreads : u.threads = s.threads)
    (hnow : u.now = s.now) (hnames : u.names = s.names) (hstaged : u.staged = s.staged)
    (hst : task'.staging = none) (hclosed : s.closed ⊆ u.closed)
    (hlate : ∀ id ∈ u.closed, id ∈ s.closed ∨ id ∈ s.names ∧ ¬Early s id)
    (hdisk : KeepsDisk s task u.closed u.disk) (hrecords : KeepsRecords s u)
    (hstorages : s.storages.length ≤ u.storages.length)
    (hfits : task'.Fits host s)
    (htargets : ∀ id, task'.target = some id → id ∈ s.names ∧ ¬InUse (u.put i k task') id) :
    Advance host s i k task task' u := by
  have hg : Grows s (u.put i k task') :=
    grows_of_put hthreads hnow hnames hstaged hclosed hst
  have huse {id : String} (huse : InUse (u.put i k task') id) : InUse s id :=
    inUse_of_put hthreads hnow hstaged hclosed hst huse
  have hnone {id : String} : task'.staging ≠ some id := fun h' => by
    rw [hst] at h'
    cases h'
  exact {
    threads := hthreads, now := hnow, names := fun id hid => hnames ▸ hid
    staging := fun id hid => absurd hid hnone
    early := fun id hid => absurd (staging_of_early hid) hnone
    inserts := fun r c hr => absurd (by rw [hr]; rfl : task'.staging = some r.id) hnone
    staged := Or.inl hstaged, closed := ⟨hclosed, hlate⟩
    named := fun d hd => by
      obtain ⟨d₀, hd₀, hname, -⟩ := hdisk.old d hd
      rw [hnames, ← hname]
      exact h.named d₀ hd₀
    disk := fun id hid hne _ => hdisk.lookup id (huse hid) hid.1 hne
    manifests := fun d hd m hm => by
      obtain ⟨d₀, hd₀, hname, hnone | hsame⟩ := hdisk.old d hd
      · rw [hnone] at hm
        cases hm
      · exact Or.inl ⟨d₀, hd₀, hname, hsame ▸ hm⟩
    records := fun j r hr => Or.inl (hrecords.valid j r hr)
    lookups := fun x hx hid => hrecords.lookup x hx (huse hid) hid.1
    fits := Task.Fits.grows hg hst hfits
    targets := fun id hid => ⟨hnames ▸ (htargets id hid).1, (htargets id hid).2⟩
    storages := hstorages
    hosted := fun h' => absurd hst h' }

/-- A step that leaves the rest of the root alone. -/
theorem Advance.same (h : Safe host s) (hst : task'.staging = none)
    (hfits : task'.Fits host s)
    (htargets : ∀ id, task'.target = some id → id ∈ s.names ∧ ¬InUse (s.put i k task') id) :
    Advance host s i k task task' s :=
  .mild h rfl rfl rfl rfl hst (fun _ h => h) (fun _ h => Or.inl h) .refl (.refl h)
    (Nat.le_refl _) hfits htargets

/-- A removal. -/
theorem Advance.removal (h : Safe host s) (hi : s.threads[i]? = some (k, task))
    (htarget : task.target = some id) (hst : task'.staging = none)
    (hlookup : ∀ j, j ≠ id → lookup Directory.name j disk = lookup Directory.name j s.disk)
    (hold : ∀ d ∈ disk, ∃ d₀ ∈ s.disk, d₀.name = d.name ∧
      (d.manifest = none ∨ d.manifest = d₀.manifest))
    (hfits : task'.Fits host s)
    (htargets : ∀ j, task'.target = some j → j = id) :
    Advance host s i k task task' { s with disk } := by
  have hnot := h.targets _ (List.mem_of_getElem? hi) id htarget
  refine .mild h rfl rfl rfl rfl hst (fun _ h => h) (fun _ h => Or.inl h) ⟨?_, hold⟩ ?_
    (Nat.le_refl _) hfits ?_
  · intro j hj _ _
    refine hlookup j fun he => hnot.2 (he ▸ hj)
  · exact ⟨fun j r hr => ⟨r, h.records j r hr, rfl, rfl⟩, fun _ _ _ _ hr => hr⟩
  · intro j hj
    rw [htargets j hj]
    refine ⟨hnot.1, fun huse => hnot.2 ?_⟩
    exact inUse_of_put (u := { s with disk }) rfl rfl rfl (fun _ h => h) hst huse

theorem lookup_rmtreeAt {c : Call} {name : String} (hne : id ≠ name) :
    lookup Directory.name id (c.rmtreeAt name disk) = lookup Directory.name id disk := by
  unfold Call.rmtreeAt
  induction disk with
  | nil => rfl
  | cons d ds ih =>
    rw [List.filterMap_cons]
    by_cases hname : d.name = name
    · have hd : d.name ≠ id := fun h => hne (h.symm.trans hname)
      have hrest : lookup Directory.name id (d :: ds) = lookup Directory.name id ds := by
        simp [lookup, hd]
      rw [if_pos hname, hrest]
      cases hleft : c.rmtree d with
      | none => exact ih
      | some left =>
        have hleftname : left.name ≠ id := by
          unfold Call.rmtree at hleft
          obtain ⟨_, -, rfl⟩ := Option.map_eq_some_iff.1 hleft
          exact hd
        dsimp only
        rw [← ih]
        simp [lookup, hleftname]
    · rw [if_neg hname]
      dsimp only
      by_cases hd : d.name = id
      · simp [lookup, hd]
      · have hrest : ∀ ds', lookup Directory.name id (d :: ds') = lookup Directory.name id ds' := by
          intro ds'
          simp [lookup, hd]
        rw [hrest, hrest, ih]

theorem old_rmtreeAt {c : Call} {name : String} (hc : c.Sound) :
    ∀ d ∈ c.rmtreeAt name disk, ∃ d₀ ∈ disk, d₀.name = d.name ∧
      (d.manifest = none ∨ d.manifest = d₀.manifest) := by
  intro d hd
  obtain ⟨d₀, hd₀, hleft⟩ := List.mem_filterMap.1 hd
  split_ifs at hleft
  · unfold Call.rmtree at hleft
    obtain ⟨left, hleft', rfl⟩ := Option.map_eq_some_iff.1 hleft
    exact ⟨d₀, hd₀, rfl, hc d₀ left hleft'⟩
  · obtain rfl := Option.some.inj hleft
    exact ⟨d₀, hd₀, rfl, Or.inr rfl⟩

theorem Advance.rmtree (h : Safe host s) (hi : s.threads[i]? = some (k, task)) (he : e.toCall.Sound)
    (htarget : task.target = some id) (hst : task'.staging = none)
    (hfits : task'.Fits host s)
    (htargets : ∀ j, task'.target = some j → j = id) :
    Advance host s i k task task' (s.rmtree e.toCall id) :=
  .removal h hi htarget hst (fun _ hj => lookup_rmtreeAt hj) (old_rmtreeAt he) hfits htargets

theorem removeDir_eq_rmtree {c : Call} (hid : resolveAttachmentDir id = some id) :
    s.removeDir c id = s.rmtree c id := by
  unfold Root.removeDir Root.rmtree Call.removeAttachmentDir
  rw [hid]

theorem recordsOf_updateRecords {f : List AttachmentRecord → List AttachmentRecord} :
    (s.updateRecords k f).recordsOf j =
      if j = k ∧ j < s.storages.length then f (s.recordsOf j) else s.recordsOf j := by
  unfold Root.recordsOf Root.updateRecords
  dsimp only
  rw [List.getElem?_modify]
  by_cases hj : j < s.storages.length
  · rw [List.getElem?_eq_getElem hj]
    by_cases hk : k = j
    · simp [hk, hj]
    · simp [hk, Ne.symm hk]
  · rw [List.getElem?_eq_none (Nat.le_of_not_lt hj)]
    simp [hj]

/-- A change of the records of one instance that leaves alone what is in use. -/
theorem keepsRecords_update {u : Root} {f : List AttachmentRecord → List AttachmentRecord}
    (h : Safe host s) (hu : u.storages = (s.updateRecords k f).storages)
    (hvalid : ∀ r ∈ f (s.recordsOf k), ∃ r₀ ∈ s.recordsOf k, r.reference = r₀.reference ∧
      r.expiresAt = r₀.expiresAt)
    (hlookup : ∀ j, InUse s j → j ∉ u.closed →
      lookup AttachmentRecord.id j (f (s.recordsOf k)) =
        lookup AttachmentRecord.id j (s.recordsOf k)) : KeepsRecords s u := by
  have hrecords (j : Nat) : u.recordsOf j = (s.updateRecords k f).recordsOf j := by
    unfold Root.recordsOf
    rw [hu]
  constructor
  · intro j r hr
    rw [hrecords, recordsOf_updateRecords] at hr
    split_ifs at hr with hj
    · obtain ⟨rfl, -⟩ := hj
      obtain ⟨r₀, hr₀, hsame⟩ := hvalid r hr
      exact ⟨r₀, h.records _ r₀ hr₀, hsame⟩
    · exact ⟨r, h.records j r hr, rfl, rfl⟩
  · intro x _ huse hopen hx
    rw [hrecords, recordsOf_updateRecords]
    split_ifs with hj
    · rw [← hx, hj.1]
      exact hlookup x.record.id huse hopen
    · exact hx

theorem lookup_map_status {status : AttachmentStatus} {j : String} (hj : j ≠ id) :
    lookup AttachmentRecord.id j
        (records.map fun r => if r.id = id then { r with status } else r) =
      lookup AttachmentRecord.id j records := by
  rw [lookup_map fun r => setStatus_id]
  cases hr : lookup AttachmentRecord.id j records with
  | none => rfl
  | some r =>
    have hid : r.id ≠ id := fun he => hj ((key_of_lookup hr).symm.trans he)
    exact congrArg some (if_neg hid)

/-- A record that is not in use, or not any more, changes its status. -/
theorem keepsRecords_setStatus {u : Root} {status : AttachmentStatus} (h : Safe host s)
    (hu : u.storages = (s.setStatus k id status).storages)
    (hnot : InUse s id → id ∈ u.closed) : KeepsRecords s u := by
  refine keepsRecords_update h hu ?_ fun j hj hopen => lookup_map_status ?_
  · intro r hr
    obtain ⟨r₀, hr₀, rfl⟩ := List.mem_map.1 hr
    refine ⟨r₀, hr₀, ?_⟩
    split_ifs <;> exact ⟨rfl, rfl⟩
  · rintro rfl
    exact hopen (hnot hj)

theorem lookup_filter {j : String} (hj : j ≠ id) :
    lookup AttachmentRecord.id j (records.filter (·.id ≠ id)) =
      lookup AttachmentRecord.id j records := by
  unfold lookup
  rw [List.find?_filter]
  congr 1
  funext r
  by_cases hr : r.id = j
  · simp [hr, hj]
  · simp [hr]

/-- What is read of a record in use is its content. -/
theorem Safe.not_inUse_of_unreadable (h : Safe host s) (hr : Valid s r)
    (hread : readVerifiedContent host s.disk r = none) : ¬InUse s r.id := by
  have hcontent {r' : AttachmentRecord} (hsame : r.reference = r'.reference) :
      readVerifiedContent host s.disk r' = none := by
    have hid : r.id = r'.id := congrArg AttachmentRef.attachmentId hsame
    unfold readVerifiedContent at hread ⊢
    rw [← hid, ← hsame]
    exact hread
  rintro ⟨hopen, ⟨x, hx, hid, hnow⟩ | ⟨t, ht, hst⟩⟩
  · obtain ⟨href, -⟩ := hr.agrees.same x.record (Or.inl ⟨x, hx, rfl⟩) hid
    obtain ⟨hsome, -⟩ := (h.staged x hx).2.2.2 (hid ▸ hopen) hnow
    rw [hcontent href] at hsome
    cases hsome
  · obtain ⟨l, task⟩ := t
    obtain ⟨j, hj⟩ := List.mem_iff_getElem?.1 ht
    cases task with
    | inserting r' c =>
      have hid : r'.id = r.id := Option.some.inj hst
      obtain ⟨href, -⟩ := hr.agrees.same r' (Or.inr ⟨l, c, ht⟩) hid
      have hsome := (h.fits hj).2.2 (hid ▸ hopen)
      rw [hcontent href] at hsome
      cases hsome
    | copying | registering => exact hr.agrees.late ⟨_, ht, hst⟩
    | begin | expiring | unlinking | listing | sweeping | removing | working | verifying |
      dropping | discarding | forgetting | abandoning | restoring | rejecting | done => cases hst

/-- A record that is over is not in use, once nobody is staging its attachment. -/
theorem Safe.not_inUse_of_over (hr : Valid s r) (hover : r.expiresAt ≤ s.now)
    (hstaged : ¬Underway s r.id) : ¬InUse s r.id := by
  rintro ⟨-, ⟨x, hx, hid, hnow⟩ | hunderway⟩
  · obtain ⟨-, hexp⟩ := hr.agrees.same x.record (Or.inl ⟨x, hx, rfl⟩) hid
    rw [hexp] at hover
    exact absurd hnow (Int.not_lt.2 hover)
  · exact hstaged hunderway

/-! ### Staging -/

theorem lookup_map_at {g : Directory → Directory} {j : String} (hg : ∀ d, (g d).name = d.name)
    (hj : j ≠ id) : lookup Directory.name j (disk.map fun d => if d.name = id then g d else d) =
      lookup Directory.name j disk := by
  rw [lookup_map fun d => by split_ifs <;> first | exact hg d | rfl]
  cases hd : lookup Directory.name j disk with
  | none => rfl
  | some d =>
    have hne : d.name ≠ id := fun he => hj ((key_of_lookup hd).symm.trans he)
    exact congrArg some (if_neg hne)

theorem lookup_map_self {g : Directory → Directory} (hg : ∀ d, (g d).name = d.name)
    (hd : lookup Directory.name id disk = some d) :
    lookup Directory.name id (disk.map fun d => if d.name = id then g d else d) = some (g d) := by
  rw [lookup_map fun d => by split_ifs <;> first | exact hg d | rfl, hd]
  exact congrArg some (if_pos (key_of_lookup hd))

/-- Once a task stops staging an attachment that it has not returned, nobody uses it. -/
theorem Safe.not_inUse_of_own (h : Safe host s) (hi : s.threads[i]? = some (k, task))
    (hst : task.staging = some id) (hst' : task'.staging ≠ some id) :
    ¬InUse (s.put i k task') id := by
  have hass := assigned_of_staging (h.fits hi) hst
  rintro ⟨-, ⟨x, hx, hid, -⟩ | ⟨t, ht, hstaging⟩⟩
  · exact hass.new x hx hid
  · rcases mem_put_threads ht with ⟨j, hij, hj⟩ | rfl
    · exact hij (h.alone hj hi hstaging hst)
    · exact hst' hstaging

/-- A staging that fails is given up. -/
theorem Advance.abandoned (h : Safe host s) (hi : s.threads[i]? = some (k, task))
    {x : StoreException} (hst : task.staging = some id) :
    Advance host s i k task (.abandoning id x) s := by
  refine .same h rfl trivial fun j hj => ?_
  obtain rfl := Option.some.inj hj
  exact ⟨(assigned_of_staging (h.fits hi) hst).named,
    h.not_inUse_of_own hi hst fun h => (by cases h)⟩

theorem old_writeFile {file : String × Option Bytes} : ∀ d ∈ (s.writeFile id file).disk,
    ∃ d₀ ∈ s.disk, d₀.name = d.name ∧ (d.manifest = none ∨ d.manifest = d₀.manifest) := by
  intro d hd
  obtain ⟨d₀, hd₀, rfl⟩ := List.mem_map.1 hd
  refine ⟨d₀, hd₀, ?_⟩
  split_ifs <;> exact ⟨rfl, Or.inr rfl⟩

theorem readVerifiedContent_written {name : String} {disk : List Directory}
    (hid : resolveAttachmentDir record.id = some record.id)
    (hname : name.endsWith ".part" = false ∧ name.startsWith "." = false)
    (hdir : lookup Directory.name record.id disk = some d) (hd : d.files = [(name, some content)])
    (hsize : record.reference.sizeBytes = content.length)
    (hsha : record.reference.sha256 = host.sha256 content) :
    readVerifiedContent host disk record = some content := by
  have hfiles : d.contentFiles = [(name, some content)] := by
    unfold Directory.contentFiles
    rw [hd]
    simp [hname.1, hname.2]
  unfold readVerifiedContent
  rw [hid]
  dsimp only
  rw [hdir]
  dsimp only
  rw [hfiles]
  dsimp only
  rw [if_neg (by simp [hsize, hsha])]

theorem advance_copying {settings : Settings} {name media : String}
    {context : AttachmentAccessContext} (h : Safe host s)
    (hi : s.threads[i]? = some (k, .copying id settings name media content context)) :
    Advance host s i k (.copying id settings name media content context)
      (advance host e k s (.copying id settings name media content context)).1
      (advance host e k s (.copying id settings name media content context)).2 := by
  obtain ⟨hass, hopen, hname, hdir⟩ := h.fits hi
  unfold advance
  dsimp only
  split
  · exact .abandoned h hi rfl
  split_ifs
  · exact .abandoned h hi rfl
  split
  · next x hx =>
    refine .mild h rfl rfl rfl rfl rfl (fun _ h => h) (fun _ h => Or.inl h) ⟨?_, old_writeFile⟩
      ⟨fun j r hr => ⟨r, h.records j r hr, rfl, rfl⟩, fun _ _ _ _ hr => hr⟩ (Nat.le_refl _) trivial
      fun _ h => (by cases h)
    intro j _ _ hj
    exact lookup_map_at (fun _ => rfl) fun he => hj (congrArg some he.symm)
  · next reference hchecked =>
    have hreference : reference = ⟨id, name, media, content.length, host.sha256 content,
        .available⟩ := by
      simp only [AttachmentRef.checked, except_bind_ok, exists_unit, require_ok] at hchecked
      exact (Except.ok.inj hchecked.2.2.2.2).symm
    have hid : (stagedRecord settings e reference context).id = id :=
      congrArg AttachmentRef.attachmentId hreference
    have hstaging {l : String} (hl : some (stagedRecord settings e reference context).id = some l) :
        some id = some l := hid ▸ hl
    refine {
      threads := rfl
      now := rfl
      names := fun _ h => h
      staging := fun l hl => Or.inl (hstaging hl)
      early := fun l hl => Or.inl (hstaging hl)
      inserts := fun r c hr => (by cases hr)
      staged := Or.inl rfl
      closed := ⟨fun _ h => h, fun _ h => Or.inl h⟩
      named := fun d hd => ?_
      disk := fun l _ hne _ => ?_
      manifests := fun d hd m hm => ?_
      records := fun j r hr => Or.inl ⟨r, h.records j r hr, rfl, rfl⟩
      lookups := fun _ _ _ hr => hr
      fits := ?_
      targets := fun _ h => (by cases h)
      storages := Nat.le_refl _
      hosted := fun _ => h.hosted _ (List.mem_of_getElem? hi) fun h => (by cases h) }
    · obtain ⟨d₀, hd₀, hname, -⟩ := old_writeFile d hd
      exact hname ▸ h.named d₀ hd₀
    · exact lookup_map_at (fun _ => rfl) fun he => hne (congrArg some he.symm)
    · obtain ⟨d₀, hd₀, hname, hnone | hsame⟩ := old_writeFile d hd
      · rw [hnone] at hm
        cases hm
      · exact Or.inl ⟨d₀, hd₀, hname, hsame ▸ hm⟩
    · have hass' : Assigned s (stagedRecord settings e reference context).id := hid.symm ▸ hass
      refine ⟨⟨hass'.named, hass'.resolved, hass'.new⟩, hid.symm ▸ hopen, rfl, ?_⟩
      refine readVerifiedContent_written hass'.resolved hname
        (d := { name := id, files := [] ++ _ }) ?_ rfl (congrArg AttachmentRef.sizeBytes hreference)
        (congrArg AttachmentRef.sha256 hreference)
      rw [hid]
      exact lookup_map_self (g := fun d => { d with files := d.files ++ [(name, some content)] })
        (fun _ => rfl) hdir

theorem advance_registering (h : Safe host s)
    (hi : s.threads[i]? = some (k, .registering record content)) :
    Advance host s i k (.registering record content)
      (advance host e k s (.registering record content)).1
      (advance host e k s (.registering record content)).2 := by
  obtain ⟨hass, hopen, hstatus, hread⟩ := h.fits hi
  unfold advance
  dsimp only
  split_ifs
  · exact .abandoned h hi rfl
  have hcases (d : Directory) (hd : d ∈ (s.writeManifest record.id record.manifest).disk) :
      ∃ d₀ ∈ s.disk, d₀.name = d.name ∧
        (d.manifest = some record.manifest ∨ d.manifest = d₀.manifest) := by
    obtain ⟨d₀, hd₀, rfl⟩ := List.mem_map.1 hd
    refine ⟨d₀, hd₀, ?_⟩
    split_ifs
    · exact ⟨rfl, Or.inl rfl⟩
    · exact ⟨rfl, Or.inr rfl⟩
  refine {
    threads := rfl
    now := rfl
    names := fun _ h => h
    staging := fun l hl => Or.inl hl
    early := fun l hl => (by cases hl)
    inserts := fun r c hr => ?_
    staged := Or.inl rfl
    closed := ⟨fun _ h => h, fun _ h => Or.inl h⟩
    named := fun d hd => ?_
    disk := fun l _ hne _ => ?_
    manifests := fun d hd m hm => ?_
    records := fun j r hr => Or.inl ⟨r, h.records j r hr, rfl, rfl⟩
    lookups := fun _ _ _ hr => hr
    fits := ?_
    targets := fun _ h => (by cases h)
    storages := Nat.le_refl _
    hosted := fun _ => h.hosted _ (List.mem_of_getElem? hi) fun h => (by cases h) }
  · obtain ⟨rfl, -⟩ := Task.inserting.inj hr
    rfl
  · obtain ⟨d₀, hd₀, hname, -⟩ := hcases d hd
    exact hname ▸ h.named d₀ hd₀
  · exact lookup_map_at (fun _ => rfl) fun he => hne (congrArg some he.symm)
  · obtain ⟨d₀, hd₀, hname, hnew | hsame⟩ := hcases d hd
    · exact Or.inr ⟨record, content, rfl, (Option.some.inj (hnew.symm.trans hm)).symm⟩
    · exact Or.inl ⟨d₀, hd₀, hname, hsame ▸ hm⟩
  · refine ⟨⟨hass.named, hass.resolved, hass.new⟩, hstatus, fun _ => ?_⟩
    show readVerifiedContent host (s.writeManifest record.id record.manifest).disk record = _
    -- the file is where it was
    unfold readVerifiedContent at hread ⊢
    rw [hass.resolved] at hread ⊢
    dsimp only at hread ⊢
    cases hdir : lookup Directory.name record.id s.disk with
    | none =>
      rw [hdir] at hread
      cases hread
    | some d =>
      have hdir' : lookup Directory.name record.id
          (s.writeManifest record.id record.manifest).disk =
            some { d with manifest := some record.manifest } :=
        lookup_map_self (fun _ => rfl) hdir
      rw [hdir] at hread
      rw [hdir']
      exact hread

theorem lookup_setRecord_self :
    lookup AttachmentRecord.id record.id (Root.setRecord record records) = some record := by
  unfold Root.setRecord
  split_ifs with hsome
  · obtain ⟨r, hr⟩ := Option.isSome_iff_exists.1 hsome
    exact lookup_replace_self rfl hr
  · rw [lookup_append, Option.not_isSome_iff_eq_none.1 hsome]
    simp [lookup]

theorem lookup_setRecord_ne (h : id ≠ record.id) :
    lookup AttachmentRecord.id id (Root.setRecord record records) =
      lookup AttachmentRecord.id id records := by
  unfold Root.setRecord
  split_ifs
  · exact lookup_replace_ne rfl h
  · have hnone : lookup AttachmentRecord.id id [record] = none := by
      simpa [lookup] using Ne.symm h
    rw [lookup_append, hnone, Option.or_none]

theorem mem_setRecord (h : r ∈ Root.setRecord record records) : r = record ∨ r ∈ records := by
  unfold Root.setRecord at h
  split_ifs at h
  · exact (mem_replace h).imp_right And.left
  · exact (List.mem_append.1 h).symm.imp_left List.mem_singleton.1

theorem advance_inserting (h : Safe host s)
    (hi : s.threads[i]? = some (k, .inserting record content)) :
    Advance host s i k (.inserting record content)
      (advance host e k s (.inserting record content)).1
      (advance host e k s (.inserting record content)).2 := by
  obtain ⟨hass, -⟩ := h.fits hi
  have hk : k < s.storages.length :=
    h.hosted _ (List.mem_of_getElem? hi) fun h => (by cases h)
  have hrecords (j : Nat) : ({ s.updateRecords k (Root.setRecord record) with
      staged := s.staged ++ [{ storage := k, record, content }] } : Root).recordsOf j =
        (s.updateRecords k (Root.setRecord record)).recordsOf j := rfl
  have hlength : (s.updateRecords k (Root.setRecord record)).storages.length = s.storages.length :=
    List.length_modify ..
  unfold advance
  dsimp only
  refine {
    threads := rfl
    now := rfl
    names := fun _ h => h
    staging := fun l hl => (by cases hl)
    early := fun l hl => (by cases hl)
    inserts := fun r c hr => (by cases hr)
    staged := Or.inr ⟨record, content, rfl, rfl, ?_, rfl⟩
    closed := ⟨fun _ h => h, fun _ h => Or.inl h⟩
    named := h.named
    disk := fun _ _ _ _ => rfl
    manifests := fun d hd m hm => Or.inl ⟨d, hd, rfl, hm⟩
    records := fun j r hr => ?_
    lookups := fun x hx _ hr => ?_
    fits := trivial
    targets := fun _ h => (by cases h)
    storages := Nat.le_of_eq hlength.symm
    hosted := fun h => absurd rfl h }
  · rw [hrecords, recordsOf_updateRecords, if_pos ⟨rfl, hk⟩]
    exact lookup_setRecord_self
  · rw [hrecords, recordsOf_updateRecords] at hr
    split_ifs at hr
    · rcases mem_setRecord hr with rfl | hr
      · exact Or.inr ⟨content, rfl⟩
      · exact Or.inl ⟨r, h.records j r hr, rfl, rfl⟩
    · exact Or.inl ⟨r, h.records j r hr, rfl, rfl⟩
  · rw [hrecords, recordsOf_updateRecords]
    split_ifs
    · rw [lookup_setRecord_ne (hass.new x hx)]
      exact hr
    · exact hr

/-! ### The methods -/

theorem valid_of_recordForContext {context : AttachmentAccessContext} (h : Safe host s)
    (hr : recordForContext (s.recordsOf k) id context = some record) :
    record.id = id ∧ Valid s record := by
  have hlookup := lookup_of_recordForContext hr
  exact ⟨key_of_lookup hlookup, h.records k record (mem_of_lookup hlookup)⟩

theorem normalized_spec {settings : Settings} {fileName mediaType : Option String}
    {name media : String}
    (h : normalized host settings fileName mediaType = .ok (name, media)) :
    name = baseName (fileName.getD "") ∧ name.startsWith "." = false := by
  simp only [normalized, except_bind_ok, exists_unit, require_ok] at h
  obtain ⟨hvalid, -, hr⟩ := h
  obtain ⟨rfl, -⟩ := Prod.mk.inj (Except.ok.inj hr)
  simp only [Storage.validFileName, Bool.and_eq_true, Bool.not_eq_true'] at hvalid
  exact ⟨rfl, hvalid.2⟩

theorem lookup_of_new (h : Safe host s) (hnew : id ∉ s.names) :
    lookup Directory.name id s.disk = none := by
  rw [lookup_eq_none_iff]
  intro hmem
  obtain ⟨d, hd, rfl⟩ := List.mem_map.1 hmem
  exact hnew (h.named d hd)

/-- The directory of a new attachment is made. -/
theorem advance_mkdir {settings : Settings} {name media : String}
    {context : AttachmentAccessContext} (h : Safe host s) (hid : isHexId false id = true)
    (hnew : id ∉ s.names) (hk : k < s.storages.length)
    (hname : name.endsWith ".part" = false ∧ name.startsWith "." = false) :
    Advance host s i k task (.copying id settings name media content context)
      { s with disk := s.disk ++ [{ name := id }], names := id :: s.names } := by
  have hclosed : id ∉ s.closed := fun hid => hnew (h.closed id hid)
  refine {
    threads := rfl
    now := rfl
    names := fun _ h => List.mem_cons_of_mem _ h
    staging := fun l hl => Or.inr (Option.some.inj hl ▸ hnew)
    early := fun l hl => Or.inr (Option.some.inj hl ▸ hnew)
    inserts := fun r c hr => (by cases hr)
    staged := Or.inl rfl
    closed := ⟨fun _ h => h, fun _ h => Or.inl h⟩
    named := fun d hd => ?_
    disk := fun l _ _ hne => ?_
    manifests := fun d hd m hm => ?_
    records := fun j r hr => Or.inl ⟨r, h.records j r hr, rfl, rfl⟩
    lookups := fun _ _ _ hr => hr
    fits := ⟨⟨List.mem_cons_self, resolve_of_generated hid, fun x hx he => ?_⟩, hclosed, hname, ?_⟩
    targets := fun _ h => (by cases h)
    storages := Nat.le_refl _
    hosted := fun _ => hk }
  · rcases List.mem_append.1 hd with hd | hd
    · exact List.mem_cons_of_mem _ (h.named d hd)
    · rw [List.mem_singleton.1 hd]
      exact List.mem_cons_self
  · show lookup Directory.name l (s.disk ++ [{ name := id }]) = _
    have hother : lookup Directory.name l [({ name := id } : Directory)] = none := by
      have : id ≠ l := fun he => hne (congrArg some he)
      simpa [lookup] using this
    rw [lookup_append, hother, Option.or_none]
  · rcases List.mem_append.1 hd with hd | hd
    · exact Or.inl ⟨d, hd, rfl, hm⟩
    · rw [List.mem_singleton.1 hd] at hm
      cases hm
  · exact hnew (he ▸ (h.staged x hx).1)
  · show lookup Directory.name id (s.disk ++ [{ name := id }]) = _
    rw [lookup_append, lookup_of_new h hnew]
    simp [lookup]

/-- A task that ends, or goes on to a point that neither removes nor relies on anything. -/
theorem Advance.plain (h : Safe host s) (hst : task'.staging = none) (hfits : task'.Fits host s)
    (htarget : task'.target = none) : Advance host s i k task task' s :=
  .same h hst hfits fun id hid => by
    rw [htarget] at hid
    cases hid

theorem advance_working {job : Job} (h : Safe host s)
    (hnew : isHexId false e.uuid4 = true ∧ e.uuid4 ∉ s.names)
    (hcare : (Task.working job).Careful host s k) :
    Advance host s i k (.working job) (work host e k s job).1 (work host e k s job).2 := by
  cases job with
  | cleanup => exact .plain h rfl trivial rfl
  | read attachment context =>
    unfold work
    dsimp only
    split
    · exact .plain h rfl trivial rfl
    split
    · exact .plain h rfl trivial rfl
    next id _ record hrecord =>
    split_ifs
    · exact .plain h rfl trivial rfl
    · exact .plain h rfl (valid_of_recordForContext h hrecord) rfl
  | consume attachment context =>
    unfold work
    dsimp only
    split
    · exact .plain h rfl trivial rfl
    split
    · exact .plain h rfl trivial rfl
    next id _ record hrecord =>
    split_ifs
    · exact .plain h rfl trivial rfl
    · exact .plain h rfl (valid_of_recordForContext h hrecord) rfl
  | discard attachment context =>
    unfold work
    dsimp only
    split
    · exact .plain h rfl trivial rfl
    split
    · exact .plain h rfl trivial rfl
    next id _ record hrecord =>
    obtain ⟨rfl, hvalid⟩ := valid_of_recordForContext h hrecord
    refine .mild h rfl rfl rfl rfl rfl (fun _ hid => List.mem_cons_of_mem _ hid) ?_
      ⟨fun _ _ _ _ => rfl, fun d hd => ⟨d, hd, rfl, Or.inr rfl⟩⟩
      ⟨fun j r hr => ⟨r, h.records j r hr, rfl, rfl⟩, fun _ _ _ _ hr => hr⟩ (Nat.le_refl _)
      hvalid.resolved ?_
    · intro id hid
      rcases List.mem_cons.1 hid with rfl | hid
      · exact Or.inr ⟨hvalid.agrees.named, hvalid.agrees.late⟩
      · exact Or.inl hid
    · intro id hid
      obtain rfl := Option.some.inj hid
      exact ⟨hvalid.agrees.named, fun huse => huse.1 List.mem_cons_self⟩
  | stage fileName mediaType content context =>
    unfold work
    dsimp only
    split
    · exact .plain h rfl trivial rfl
    next storage hstorage =>
    split
    · exact .plain h rfl trivial rfl
    split
    · exact .plain h rfl trivial rfl
    next name media hnormalized =>
    split
    · exact .plain h rfl trivial rfl
    obtain ⟨hname, hdot⟩ := normalized_spec hnormalized
    refine advance_mkdir h hnew.1 hnew.2 (List.getElem?_eq_some_iff.1 hstorage).1 ⟨?_, hdot⟩
    rw [hname]
    exact hcare

theorem generated_of_readManifest {settings : Settings}
    (h : readManifest settings d = some record) : isHexId false record.id = true := by
  unfold readManifest at h
  split at h
  · cases h
  split_ifs at h
  split at h
  · cases h
  next reference hchecked =>
  split_ifs at h
  split at h
  · cases h
  cases h
  simp only [AttachmentRef.checked, except_bind_ok, exists_unit, require_ok] at hchecked
  obtain ⟨hid, -, -, -, hr⟩ := hchecked
  exact Except.ok.inj hr ▸ hid

/-- What a new instance finds agrees with what others have staged. -/
theorem Safe.valid_of_restored {settings : Settings} {now : Int} (h : Safe host s) (hd : d ∈ s.disk)
    (hr : restoredRecord host settings now s.disk d = some record) : Valid s record := by
  have hread := (restoredRecord_spec hr).1
  obtain ⟨m, hm, href, hid, hexp⟩ := readManifest_spec hread
  have hmid : m.toRecord.id = d.name :=
    (congrArg AttachmentRef.attachmentId href).symm.trans hid
  exact ⟨resolve_of_generated (generated_of_readManifest hread),
    (h.manifests d hd m hm hmid).of_same href hexp⟩

theorem keepsRecords_append {settings : Settings} (h : Safe host s)
    (hrecords : ∀ r ∈ records, Valid s r) :
    KeepsRecords s { s with storages := s.storages ++ [{ settings, records }] } := by
  have hrecordsOf (j : Nat) (hj : j < s.storages.length) :
      ({ s with storages := s.storages ++ [{ settings, records }] } : Root).recordsOf j =
        s.recordsOf j := by
    unfold Root.recordsOf
    dsimp only
    rw [List.getElem?_append_left hj]
  constructor
  · intro j r hr
    by_cases hj : j < s.storages.length
    · rw [hrecordsOf j hj] at hr
      exact ⟨r, h.records j r hr, rfl, rfl⟩
    · unfold Root.recordsOf at hr
      dsimp only at hr
      rw [List.getElem?_append_right (Nat.le_of_not_lt hj)] at hr
      cases hl : j - s.storages.length with
      | zero =>
        rw [hl] at hr
        exact ⟨r, hrecords r hr, rfl, rfl⟩
      | succ l =>
        rw [hl] at hr
        cases hr
  · intro x _ _ _ hx
    rw [hrecordsOf]
    · exact hx
    · by_contra hlong
      have hnone : s.recordsOf x.storage = [] := by
        unfold Root.recordsOf
        rw [List.getElem?_eq_none (Nat.le_of_not_lt hlong)]
      rw [hnone] at hx
      cases hx

/-- **What a step can do**, if it is careful. -/
theorem advance_spec (h : Safe host s)
    (hnew : isHexId false e.uuid4 = true ∧ e.uuid4 ∉ s.names) (he : e.toCall.Sound)
    (hi : s.threads[i]? = some (k, task)) (hcare : task.Careful host s k) :
    Advance host s i k task (advance host e k s task).1 (advance host e k s task).2 := by
  have hmem := List.mem_of_getElem? hi
  cases task with
  | begin job => exact .plain h rfl trivial rfl
  | expiring now size pending job =>
    unfold advance
    dsimp only
    split_ifs
    · exact .plain h rfl trivial rfl
    cases pending with
    | nil => exact .plain h rfl trivial rfl
    | cons id pending =>
      dsimp only
      split
      · exact .plain h rfl trivial rfl
      next record hrecord =>
      split_ifs with hkeep
      · exact .plain h rfl trivial rfl
      simp only [not_or, not_not, Int.not_lt] at hkeep
      have hvalid := h.records k record (mem_of_lookup hrecord)
      have hid := key_of_lookup hrecord
      have hnot : ¬InUse s id := by
        rcases hcare record hrecord hkeep.1 hkeep.2 with hclosed | ⟨hover, hstaged⟩
        · exact fun huse => huse.1 hclosed
        · exact hid ▸ Safe.not_inUse_of_over hvalid hover (hid ▸ hstaged)
      refine .mild h rfl rfl rfl rfl rfl (fun _ h => h) (fun _ h => Or.inl h) .refl
        (keepsRecords_setStatus h rfl fun huse => absurd huse hnot)
        (Nat.le_of_eq (List.length_modify ..).symm) (hid ▸ hvalid.resolved) ?_
      intro j hj
      obtain rfl := Option.some.inj hj
      refine ⟨hid ▸ hvalid.agrees.named, fun huse => hnot ?_⟩
      exact inUse_of_put rfl rfl rfl (fun _ h => h) rfl huse
  | unlinking id now size pending job =>
    have hid : resolveAttachmentDir id = some id := h.fits hi
    unfold advance
    dsimp only
    rw [removeDir_eq_rmtree hid]
    exact .rmtree h hi he rfl rfl trivial fun _ hj => (by cases hj)
  | listing job => exact .plain h rfl trivial rfl
  | sweeping candidates job =>
    cases candidates with
    | nil => exact .plain h rfl trivial rfl
    | cons name candidates =>
      unfold advance
      dsimp only
      split_ifs with hstray
      · refine .same h rfl trivial fun id hid => ?_
        obtain rfl := Option.some.inj hid
        obtain ⟨d, hd⟩ := Option.isSome_iff_exists.1 hstray.1
        refine ⟨key_of_lookup hd ▸ h.named d (mem_of_lookup hd), fun huse => ?_⟩
        exact hcare hstray.1 hstray.2 (inUse_of_put rfl rfl rfl (fun _ h => h) rfl huse)
      · exact .plain h rfl trivial rfl
  | removing name candidates job =>
    exact .rmtree h hi he rfl rfl trivial fun _ hj => (by cases hj)
  | working job => exact advance_working h hnew hcare
  | verifying id record consumes =>
    obtain ⟨rfl, hvalid⟩ := h.fits hi
    unfold advance
    dsimp only
    split
    · next hread =>
      have hnot := h.not_inUse_of_unreadable hvalid hread
      refine .mild h rfl rfl rfl rfl rfl (fun _ h => h) (fun _ h => Or.inl h) .refl
        (keepsRecords_setStatus h rfl fun huse => absurd huse hnot)
        (Nat.le_of_eq (List.length_modify ..).symm) hvalid.resolved ?_
      intro j hj
      obtain rfl := Option.some.inj hj
      refine ⟨hvalid.agrees.named, fun huse => hnot ?_⟩
      exact inUse_of_put rfl rfl rfl (fun _ h => h) rfl huse
    · split_ifs
      · refine .mild h rfl rfl rfl rfl rfl (fun _ hid => List.mem_cons_of_mem _ hid) ?_
          ⟨fun _ _ _ _ => rfl, fun d hd => ⟨d, hd, rfl, Or.inr rfl⟩⟩
          (keepsRecords_setStatus h rfl fun _ => List.mem_cons_self)
          (Nat.le_of_eq (List.length_modify ..).symm) hvalid.resolved ?_
        · intro id hid
          rcases List.mem_cons.1 hid with rfl | hid
          · exact Or.inr ⟨hvalid.agrees.named, hvalid.agrees.late⟩
          · exact Or.inl hid
        · intro id hid
          obtain rfl := Option.some.inj hid
          exact ⟨hvalid.agrees.named, fun huse => huse.1 List.mem_cons_self⟩
      · exact .plain h rfl trivial rfl
  | dropping id result =>
    have hid : resolveAttachmentDir id = some id := h.fits hi
    unfold advance
    dsimp only
    rw [removeDir_eq_rmtree hid]
    exact .rmtree h hi he rfl rfl trivial fun _ hj => (by cases hj)
  | discarding id =>
    have hid : resolveAttachmentDir id = some id := h.fits hi
    unfold advance
    dsimp only
    rw [removeDir_eq_rmtree hid]
    exact .rmtree h hi he rfl rfl trivial fun j hj => (Option.some.inj hj).symm
  | forgetting id =>
    have hnot := (h.targets _ hmem id rfl).2
    unfold advance
    dsimp only
    split_ifs
    · refine .mild h rfl rfl rfl rfl rfl (fun _ h => h) (fun _ h => Or.inl h) .refl
        (keepsRecords_update h rfl (fun r hr => ⟨r, List.mem_of_mem_filter hr, rfl, rfl⟩)
          fun j hj _ => lookup_filter fun he => hnot (he ▸ hj))
        (Nat.le_of_eq (List.length_modify ..).symm) trivial fun _ hj => (by cases hj)
    · exact .plain h rfl trivial rfl
  | copying => exact advance_copying h hi
  | registering => exact advance_registering h hi
  | inserting => exact advance_inserting h hi
  | abandoning id x => exact .rmtree h hi he rfl rfl trivial fun _ hj => (by cases hj)
  | restoring settings now candidates records =>
    have hrecords : ∀ r ∈ records, Valid s r := h.fits hi
    cases candidates with
    | nil =>
      refine .mild h rfl rfl rfl rfl rfl (fun _ h => h) (fun _ h => Or.inl h) .refl ?_
        (by simp [advance]) trivial fun _ hj => (by cases hj)
      exact keepsRecords_append h hrecords
    | cons name candidates =>
      unfold advance
      dsimp only
      split
      · exact .plain h rfl hrecords rfl
      next d hd =>
      split
      · next hnone =>
        refine .same h rfl hrecords fun id hid => ?_
        obtain rfl := Option.some.inj hid
        refine ⟨key_of_lookup hd ▸ h.named d (mem_of_lookup hd), fun huse => ?_⟩
        exact hcare d hd hnone (inUse_of_put rfl rfl rfl (fun _ h => h) rfl huse)
      · next record hrecord =>
        refine .plain h rfl (fun r hr => ?_) rfl
        rcases List.mem_append.1 hr with hr | hr
        · exact hrecords r hr
        · rw [List.mem_singleton.1 hr]
          exact h.valid_of_restored (mem_of_lookup hd) hrecord
  | rejecting name settings now candidates records =>
    have hrecords : ∀ r ∈ records, Valid s r := h.fits hi
    exact .rmtree h hi he rfl rfl hrecords fun _ hj => (by cases hj)
  | done response => exact .plain h rfl trivial rfl

/-! ## Runs -/

/-- No instance has been constructed over the root. -/
structure Initial (s : Root) : Prop where
  named : ∀ d ∈ s.disk, d.name ∈ s.names
  storages : s.storages = []
  threads : s.threads = []
  staged : s.staged = []
  closed : s.closed = []

theorem Safe.of_initial (h : Initial s) : Safe host s := by
  have hthreads {i : Nat} {t : Nat × Task} : s.threads[i]? ≠ some t := by
    rw [h.threads]
    exact fun ht => (by cases ht)
  have hmem {t : Nat × Task} : t ∉ s.threads := by
    rw [h.threads]
    exact List.not_mem_nil
  have hstaged {x : Held} : x ∉ s.staged := by
    rw [h.staged]
    exact List.not_mem_nil
  refine ⟨h.named, ?_, ?_, ?_, fun ht => absurd ht hthreads, fun t ht => absurd ht hmem,
    fun t ht => absurd ht hmem, fun ht => absurd ht hthreads, fun x hx => absurd hx hstaged⟩
  · intro id hid
    rw [h.closed] at hid
    cases hid
  · intro k r hr
    unfold Root.recordsOf at hr
    rw [h.storages] at hr
    cases hr
  · intro d hd m hm hid
    refine ⟨hid ▸ h.named d hd, fun ⟨t, ht, _⟩ => hmem ht, ?_⟩
    rintro r (⟨x, hx, -⟩ | ⟨k, c, ht⟩) -
    · exact absurd hx hstaged
    · exact absurd ht hmem

/-- A task that begins, as time goes by. -/
theorem Safe.begun {now : Int} {extra : List (Nat × Task)} (h : Safe host s) (hnow : s.now ≤ now)
    (hextra : ∀ t ∈ extra, t.2.staging = none ∧ t.2.target = none ∧ t.2.Fits host s) :
    Safe host { s with now, threads := s.threads ++ extra } := by
  have hold {t : Nat × Task} {id : String} (ht : t ∈ s.threads ++ extra)
      (hst : t.2.staging = some id) : t ∈ s.threads := by
    rcases List.mem_append.1 ht with ht | ht
    · exact ht
    · rw [(hextra t ht).1] at hst
      cases hst
  have hindex {i : Nat} {t : Nat × Task} {id : String} (ht : (s.threads ++ extra)[i]? = some t)
      (hst : t.2.staging = some id) : s.threads[i]? = some t := by
    rw [List.getElem?_append] at ht
    split_ifs at ht
    · exact ht
    · rw [(hextra t (List.mem_of_getElem? ht)).1] at hst
      cases hst
  have hg : Grows s { s with now, threads := s.threads ++ extra } := by
    refine ⟨fun _ h => h, ?_, ?_, ?_⟩
    · rintro id ⟨t, ht, hearly⟩
      exact Or.inl ⟨t, hold ht (staging_of_early hearly), hearly⟩
    · rintro r (hx | ⟨k, c, ht⟩)
      · exact Or.inl (Or.inl hx)
      · exact Or.inl (Or.inr ⟨k, c, hold ht rfl⟩)
    · rintro id ⟨hopen, ⟨x, hx, hid, hlt⟩ | ⟨t, ht, hst⟩⟩
      · exact Or.inl ⟨hopen, Or.inl ⟨x, hx, hid, Int.lt_of_le_of_lt hnow hlt⟩⟩
      · exact Or.inl ⟨hopen, Or.inr ⟨t, hold ht hst, hst⟩⟩
  refine ⟨h.named, h.closed, fun k r hr => (h.records k r hr).grows hg,
    fun d hd m hm hid => (h.manifests d hd m hm hid).grows hg, ?_, ?_, ?_, ?_, ?_⟩
  · intro i k task hi
    cases hst : task.staging with
    | some id =>
      have hfits := h.fits (hindex hi hst)
      have hass : Assigned { s with now, threads := s.threads ++ extra } id :=
        have hass := assigned_of_staging hfits hst
        ⟨hass.named, hass.resolved, hass.new⟩
      cases task with
      | copying | registering | inserting =>
        cases hst
        exact ⟨hass, hfits.2⟩
      | begin | expiring | unlinking | listing | sweeping | removing | working | verifying |
        dropping | discarding | forgetting | abandoning | restoring | rejecting | done => cases hst
    | none =>
      refine Task.Fits.grows hg hst ?_
      rw [List.getElem?_append] at hi
      split_ifs at hi
      · exact h.fits hi
      · exact (hextra _ (List.mem_of_getElem? hi)).2.2
  · intro t ht id hid
    rcases List.mem_append.1 ht with ht | ht
    · exact not_inUse hg (h.targets t ht id hid)
    · rw [(hextra t ht).2.1] at hid
      cases hid
  · intro t ht hst
    obtain ⟨id, hid⟩ := Option.ne_none_iff_exists'.1 hst
    exact h.hosted t (hold ht hid) hst
  · exact fun ht hu hst hst' => h.alone (hindex ht hst) (hindex hu hst') hst hst'
  · intro x hx
    obtain ⟨hnamed, hres, hstatus, hkeep⟩ := h.staged x hx
    exact ⟨hnamed, hres, hstatus, fun hopen hlt => hkeep hopen (Int.lt_of_le_of_lt hnow hlt)⟩

/-- **Whatever happens with care keeps the root safe.** -/
theorem Safe.happens {a : Happening} (h : Safe host s)
    (ha : Guarded (Happens host) (Careful host) s a s') : Safe host s' := by
  obtain ⟨⟨rfl, hproper⟩, hcare⟩ := ha
  cases a with
  | call k job =>
    refine h.begun (Int.le_refl _) fun t ht => ?_
    obtain rfl := List.mem_singleton.1 ht
    exact ⟨rfl, rfl, trivial⟩
  | construct settings now =>
    refine h.begun hproper fun t ht => ?_
    obtain rfl := List.mem_singleton.1 ht
    exact ⟨rfl, rfl, fun r hr => (by cases hr)⟩
  | step i e =>
    obtain ⟨hnow, hid, hnew, he⟩ := hproper
    unfold happen
    dsimp only
    split
    · exact h
    next k task hi =>
    have hlater : Safe host { s with now := e.now } := by
      have hnone : ∀ t ∈ ([] : List (Nat × Task)), t.2.staging = none ∧ t.2.target = none ∧
          t.2.Fits host s := fun t ht => (by cases ht)
      have hbegun := h.begun hnow hnone
      rwa [List.append_nil] at hbegun
    exact hlater.advance hi (advance_spec hlater ⟨hid, hnew⟩ he hi (hcare k task hi))

theorem Safe.run {as : List Happening} (h : Initial s)
    (hs : Steps (Guarded (Happens host) (Careful host)) s as s') : Safe host s' :=
  hs.invariant (P := Safe host) (fun hsafe ha => hsafe.happens ha) (Safe.of_initial h)

/-! ## What can be read -/

/-- The context may have the attachment of the record. -/
def Permitted (record : AttachmentRecord) (context : AttachmentAccessContext) : Prop :=
  context.subject = record.ownerSubject ∧
    (record.conversationId = none ∨ context.conversationId = record.conversationId)

/-- The instance that staged an attachment gives it to the context that may have it: to a read that
is carried out at once, and to one that others come between. -/
structure Readable (host : Host) (s : Root) (x : Held) : Prop where
  alone : ∃ storage, s.storages[x.storage]? = some storage ∧
    ∀ c attachment context, attachmentId attachment = some x.record.id →
      Permitted x.record context → c.now < x.record.expiresAt →
        (World.read host c attachment context ⟨storage, s.disk⟩).1 =
          availableResult x.record x.content
  found : ∀ e attachment context, attachmentId attachment = some x.record.id →
    Permitted x.record context → advance host e x.storage s (.working (.read attachment context)) =
      (.verifying x.record.id x.record false, s)
  given : ∀ e k r, (k, .verifying x.record.id r false) ∈ s.threads →
    advance host e k s (.verifying x.record.id r false) =
      (.done (some (.fetched (availableResult x.record x.content))), s)

theorem lookup_removeAttachmentDir {c : Call} {j : String} (hj : resolveAttachmentDir j = some j)
    (hne : id ≠ j) : lookup Directory.name id (c.removeAttachmentDir j disk).2 =
      lookup Directory.name id disk := by
  unfold Call.removeAttachmentDir
  rw [hj]
  exact lookup_rmtreeAt hne

/-- The first loop of a cleanup removes the directories of the records that are over. -/
theorem lookup_expireRecords {c : Call} {now : Int}
    (hres : ∀ r ∈ records, resolveAttachmentDir r.id = some r.id)
    (hlive : ∀ r ∈ records, r.id = id → now < r.expiresAt) :
    lookup Directory.name id (c.expireRecords now records disk).2.2 =
      lookup Directory.name id disk := by
  induction records generalizing disk with
  | nil => rfl
  | cons r rs ih =>
    have hres' := fun r' hr' => hres r' (List.mem_cons_of_mem _ hr')
    have hlive' := fun r' hr' => hlive r' (List.mem_cons_of_mem _ hr')
    unfold Call.expireRecords
    split_ifs with hover
    · exact ih hres' hlive'
    · simp only [not_or, not_not, Int.not_lt] at hover
      have hne : id ≠ r.id := fun he =>
        absurd (hlive r List.mem_cons_self he.symm) (Int.not_lt.2 hover.2)
      dsimp only
      rw [ih hres' hlive']
      exact lookup_removeAttachmentDir (hres r List.mem_cons_self) hne

theorem lookup_sweep {c : Call} {ids : List String} (hid : id ∈ ids) :
    lookup Directory.name id (c.sweep ids disk).2 = lookup Directory.name id disk := by
  unfold Call.sweep
  dsimp only
  induction disk with
  | nil => rfl
  | cons d ds ih =>
    have hcons (d : Directory) (ds : List Directory) : lookup Directory.name id (d :: ds) =
        if d.name = id then some d else lookup Directory.name id ds := by
      unfold lookup
      rw [List.find?_cons]
      by_cases hd : d.name = id
      · simp [hd]
      · simp [hd]
    rw [List.filterMap_cons]
    by_cases hd : d.name ∈ ids
    · rw [if_pos hd]
      dsimp only
      rw [hcons, hcons, ih]
    · have hne : d.name ≠ id := fun he => hd (he ▸ hid)
      rw [if_neg hd, hcons d ds, if_neg hne]
      cases hleft : c.rmtree d with
      | none => exact ih
      | some left =>
        have hname : left.name = d.name := by
          unfold Call.rmtree at hleft
          obtain ⟨_, -, rfl⟩ := Option.map_eq_some_iff.1 hleft
          rfl
        dsimp only
        rw [hcons, hname, if_neg hne]
        exact ih

theorem recordForContext_of_permitted {context : AttachmentAccessContext}
    (hr : lookup AttachmentRecord.id id records = some record) (h : Permitted record context) :
    recordForContext records id context = some record := by
  unfold recordForContext
  rw [hr]
  dsimp only
  rw [if_neg (not_not.2 h.1), if_neg]
  rintro ⟨hsome, hne⟩
  exact h.2.elim hsome hne

/-- A read on an instance that has the record of an attachment, and the content, gives it. -/
theorem read_of_kept {storage : Storage} {c : Call} {attachment : Attachment}
    {context : AttachmentAccessContext}
    (hres : ∀ r ∈ storage.records, resolveAttachmentDir r.id = some r.id)
    (hlive : ∀ r ∈ storage.records, r.id = record.id → c.now < r.expiresAt)
    (hlookup : lookup AttachmentRecord.id record.id storage.records = some record)
    (hread : readVerifiedContent host disk record = some content)
    (hstatus : record.status = .available) (hid : attachmentId attachment = some record.id)
    (hcontext : Permitted record context) :
    (World.read host c attachment context ⟨storage, disk⟩).1 = availableResult record content := by
  have hmem := mem_of_lookup hlookup
  have hnow : c.now < record.expiresAt := hlive record hmem rfl
  have hat : record.at c.now = record := by
    unfold AttachmentRecord.at
    rw [if_pos (Or.inr hnow)]
  have hcleaned : lookup AttachmentRecord.id record.id
      (c.cleanupExpired none ⟨storage, disk⟩).2.storage.records = some record := by
    rw [lookup_cleaned, hlookup]
    exact congrArg some hat
  have hdisk : lookup Directory.name record.id (c.cleanupExpired none ⟨storage, disk⟩).2.disk =
      lookup Directory.name record.id disk := by
    have hmem' : record.id ∈
        (c.cleanupExpired none ⟨storage, disk⟩).2.storage.records.map AttachmentRecord.id :=
      lookup_isSome_iff.1 (by rw [hcleaned]; rfl)
    exact (lookup_sweep hmem').trans (lookup_expireRecords hres hlive)
  unfold World.read
  dsimp only
  rw [hid]
  dsimp only
  rw [recordForContext_of_permitted hcleaned hcontext]
  dsimp only
  rw [if_neg (not_not.2 hstatus), readVerifiedContent_congr (hres record hmem) hdisk, hread]

/-- In a safe root what is staged can be read. -/
theorem Safe.readable {x : Held} (h : Safe host s) (hx : x ∈ s.staged)
    (hopen : x.record.id ∉ s.closed) (hnow : s.now < x.record.expiresAt) : Readable host s x := by
  obtain ⟨-, hres, hstatus, hkeep⟩ := h.staged x hx
  obtain ⟨hread, hlookup⟩ := hkeep hopen hnow
  refine ⟨?_, ?_, ?_⟩
  · cases hstorage : s.storages[x.storage]? with
    | none =>
      unfold Root.recordsOf at hlookup
      rw [hstorage] at hlookup
      cases hlookup
    | some storage =>
      have hrecords : s.recordsOf x.storage = storage.records := by
        unfold Root.recordsOf
        rw [hstorage]
      have hvalid : ∀ r ∈ storage.records, Valid s r := fun r hr =>
        h.records x.storage r (hrecords ▸ hr)
      refine ⟨storage, rfl, fun c attachment context hid hcontext hlt => ?_⟩
      refine read_of_kept (fun r hr => (hvalid r hr).resolved) (fun r hr he => ?_)
        (hrecords ▸ hlookup) hread hstatus hid hcontext
      rw [((hvalid r hr).agrees.same x.record (Or.inl ⟨x, hx, rfl⟩) he.symm).2]
      exact hlt
  · intro e attachment context hid hcontext
    unfold Filesystem.advance work
    dsimp only
    rw [hid]
    dsimp only
    rw [recordForContext_of_permitted hlookup hcontext]
    dsimp only
    rw [if_neg (not_not.2 hstatus)]
  · intro e k r ht
    obtain ⟨i, hi⟩ := List.mem_iff_getElem?.1 ht
    obtain ⟨hid, hvalid⟩ := h.fits hi
    obtain ⟨href, -⟩ := hvalid.agrees.same x.record (Or.inl ⟨x, hx, rfl⟩) hid.symm
    have hread' : readVerifiedContent host s.disk r = some x.content := by
      unfold readVerifiedContent at hread ⊢
      rw [hid, href]
      exact hread
    unfold Filesystem.advance
    dsimp only
    rw [hread']
    dsimp only
    unfold availableResult
    rw [href]
    rfl

/-- In a safe root what is being staged has its directory. -/
theorem Safe.isDir_of_staging (h : Safe host s) {t : Nat × Task} (ht : t ∈ s.threads)
    (hst : t.2.staging = some id) (hopen : id ∉ s.closed) : isDir id s.disk = true := by
  obtain ⟨k, task⟩ := t
  obtain ⟨i, hi⟩ := List.mem_iff_getElem?.1 ht
  have hread {r : AttachmentRecord} {c : Bytes} (hres : resolveAttachmentDir r.id = some r.id)
      (hread : readVerifiedContent host s.disk r = some c) : isDir r.id s.disk = true := by
    unfold readVerifiedContent at hread
    rw [hres] at hread
    unfold isDir
    cases hd : lookup Directory.name r.id s.disk with
    | some => rfl
    | none =>
      dsimp only at hread
      rw [hd] at hread
      cases hread
  cases task with
  | copying =>
    cases hst
    obtain ⟨-, -, -, hdir⟩ := h.fits hi
    unfold isDir
    rw [hdir]
    rfl
  | registering r c =>
    cases hst
    obtain ⟨hass, -, -, hcontent⟩ := h.fits hi
    exact hread hass.resolved hcontent
  | inserting r c =>
    cases hst
    obtain ⟨hass, -, hcontent⟩ := h.fits hi
    exact hread hass.resolved (hcontent hopen)
  | begin | expiring | unlinking | listing | sweeping | removing | working | verifying | dropping |
    discarding | forgetting | abandoning | restoring | rejecting | done => cases hst

instance : Decidable (Underway s id) :=
  inferInstanceAs (Decidable (∃ t ∈ s.threads, t.2.staging = some id))

instance : Decidable (InUse s id) := inferInstanceAs
  (Decidable (id ∉ s.closed ∧
    ((∃ x ∈ s.staged, x.record.id = id ∧ s.now < x.record.expiresAt) ∨ Underway s id)))

instance : (task : Task) → Decidable (task.Careful host s k)
  | .expiring now _ (id :: _) _ => inferInstanceAs
    (Decidable (∀ r ∈ lookup AttachmentRecord.id id (s.recordsOf k), r.status = .available →
      r.expiresAt ≤ now → id ∈ s.closed ∨ r.expiresAt ≤ s.now ∧ ¬Underway s id))
  | .sweeping (name :: _) _ => inferInstanceAs
    (Decidable (isDir name s.disk = true → name ∉ (s.recordsOf k).map AttachmentRecord.id →
      ¬InUse s name))
  | .restoring settings now (name :: _) _ => inferInstanceAs
    (Decidable (∀ d ∈ lookup Directory.name name s.disk,
      restoredRecord host settings now s.disk d = none → ¬InUse s name))
  | .working (.stage fileName ..) =>
    inferInstanceAs (Decidable ((baseName (fileName.getD "")).endsWith ".part" = false))
  | .begin _ | .expiring _ _ [] _ | .unlinking .. | .listing _ | .sweeping [] _ | .removing .. |
    .working (.cleanup _) | .working (.read ..) | .working (.consume ..) | .working (.discard ..) |
    .verifying .. | .dropping .. | .discarding _ | .forgetting _ | .copying .. | .registering .. |
    .inserting .. | .abandoning .. | .restoring _ _ [] _ | .rejecting .. | .done _ => isTrue trivial

instance : (a : Happening) → Decidable (Careful host s a)
  | .step i e => decidable_of_iff
      (∀ t ∈ s.threads[i]?, t.2.Careful host { s with now := e.now } t.1)
      ⟨fun h k task ht => h (k, task) ht, fun h t ht => h t.1 t.2 ht⟩
  | .call .. | .construct .. => isTrue trivial

/-- A root without instances. -/
def bareRoot : Root where
  now := 0
  disk := []
  storages := []
  names := []

theorem initial_bareRoot : Initial bareRoot := ⟨fun d hd => (by cases hd), rfl, rfl, rfl, rfl⟩

/-- What a step finds at an instant. -/
def moment (now : Int) (uuid4 : String) : Staging := { toCall := callAt now, uuid4 }

theorem proper_step {now : Int} (hnow : s.now ≤ now) (hid : isHexId false id = true)
    (hnew : id ∉ s.names) : Proper s (.step i (moment now id)) :=
  ⟨hnow, hid, hnew, fun _ _ h => (by cases h)⟩

def otherId : String := "fedcba9876543210fedcba9876543210"

/-- The next `n` steps of a task, at one instant. -/
def Root.steps (i : Nat) (now : Int) (uuid4 : String) : Nat → Root → Root
  | 0, s => s
  | n + 1, s => Root.steps i now uuid4 n (happen plainHost s (.step i (moment now uuid4)))

/-- Whether they are proper and `good`. -/
def Root.canStep (good : Root → Happening → Bool) (i : Nat) (now : Int) (uuid4 : String) :
    Nat → Root → Bool
  | 0, _ => true
  | n + 1, s => decide (s.now ≤ now ∧ uuid4 ∉ s.names) && good s (.step i (moment now uuid4)) &&
    Root.canStep good i now uuid4 n (happen plainHost s (.step i (moment now uuid4)))

theorem steps_of_canStep {good : Root → Happening → Bool} (i : Nat) (now : Int) (n : Nat) (s : Root)
    (hid : isHexId false id = true) (h : Root.canStep good i now id n s = true) :
    ∃ as, Steps (Guarded (Happens plainHost) fun s a => good s a = true) s as
      (Root.steps i now id n s) := by
  induction n generalizing s with
  | zero => exact ⟨[], .nil s⟩
  | succ n ih =>
    simp only [Root.canStep, Bool.and_eq_true, decide_eq_true_eq] at h
    obtain ⟨⟨⟨hnow, hnew⟩, hgood⟩, hrest⟩ := h
    obtain ⟨as, hs⟩ := ih _ hrest
    exact ⟨_ :: as, .cons ⟨⟨rfl, proper_step hnow hid hnew⟩, hgood⟩ hs⟩

theorem hex_hiId : isHexId false hiId = true := by decide +kernel

theorem hex_otherId : isHexId false otherId = true := by decide +kernel

/-- An instance is opened on the root. -/
def openRoot : Root :=
  Root.steps 0 0 otherId 1 (happen plainHost bareRoot (.construct plainSettings 0))

/-- It is called to stage a text. -/
def calledRoot : Root := happen plainHost openRoot
  (.call 0 (.stage (some "a.txt") (some "text/plain") [104, 105] alice))

/-- The directory of the attachment is made. -/
def copyingRoot : Root := Root.steps 1 1 hiId 5 calledRoot

theorem steps_copyingRoot {good : Root → Happening → Bool}
    (hcall : ∀ s k job, good s (.call k job) = true)
    (hconstruct : ∀ s settings now, good s (.construct settings now) = true)
    (hopen : Root.canStep good 0 0 otherId 1
      (happen plainHost bareRoot (.construct plainSettings 0)) = true)
    (hcopying : Root.canStep good 1 1 hiId 5 calledRoot = true) :
    ∃ as, Steps (Guarded (Happens plainHost) fun s a => good s a = true) bareRoot as
      copyingRoot := by
  obtain ⟨as, has⟩ := steps_of_canStep 0 0 1 _ hex_otherId hopen
  obtain ⟨bs, hbs⟩ := steps_of_canStep 1 1 5 _ hex_hiId hcopying
  have hlen : 0 < openRoot.storages.length := by decide +kernel
  have hcalled : Guarded (Happens plainHost) (fun s a => good s a = true) openRoot _ calledRoot :=
    ⟨⟨rfl, hlen⟩, hcall _ _ _⟩
  exact ⟨_, .cons ⟨⟨rfl, Int.le_refl _⟩, hconstruct _ _ _⟩ (has.append (.cons hcalled hbs))⟩

/-- Nothing comes between. -/
def sharedRoot : Root := Root.steps 1 1 otherId 3 copyingRoot

/-- A cleanup is called before the record is there. -/
def cleaningRoot : Root :=
  happen plainHost (Root.steps 1 1 otherId 2 copyingRoot) (.call 0 (.cleanup none))

/-- It removes the directory before the staging ends. -/
def sweptRoot : Root := Root.steps 1 1 otherId 1 (Root.steps 2 1 otherId 5 cleaningRoot)

theorem steps_sweptRoot : ∃ as, Steps (Happens plainHost) bareRoot as sweptRoot := by
  let good (_ : Root) (_ : Happening) : Bool := true
  have hopen : Root.canStep good 0 0 otherId 1
      (happen plainHost bareRoot (.construct plainSettings 0)) = true := by decide +kernel
  have hcopying : Root.canStep good 1 1 hiId 5 calledRoot = true := by decide +kernel
  have hmanifest : Root.canStep good 1 1 otherId 2 copyingRoot = true := by decide +kernel
  have hsweep : Root.canStep good 2 1 otherId 5 cleaningRoot = true := by decide +kernel
  have hrest : Root.canStep good 1 1 otherId 1 (Root.steps 2 1 otherId 5 cleaningRoot) = true := by
    decide +kernel
  obtain ⟨as, has⟩ := steps_copyingRoot (fun _ _ _ => rfl) (fun _ _ _ => rfl) hopen hcopying
  obtain ⟨bs, hbs⟩ := steps_of_canStep 1 1 2 _ hex_otherId hmanifest
  obtain ⟨cs, hcs⟩ := steps_of_canStep 2 1 5 _ hex_otherId hsweep
  obtain ⟨ds, hds⟩ := steps_of_canStep 1 1 1 _ hex_otherId hrest
  have hlen : 0 < (Root.steps 1 1 otherId 2 copyingRoot).storages.length := by decide +kernel
  have hcalled : Guarded (Happens plainHost) (fun s a => good s a = true)
      (Root.steps 1 1 otherId 2 copyingRoot) _ cleaningRoot := ⟨⟨rfl, hlen⟩, rfl⟩
  exact ⟨_, (has.append (hbs.append (.cons hcalled (hcs.append hds)))).of_guarded⟩

end GoAgent.Attachments.Filesystem
