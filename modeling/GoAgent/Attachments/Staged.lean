import GoAgent.Attachments.Sharing

/-!
# What becomes of a staging

`stage_attachment` alone: it is to leave nothing when it raises, and what it stages is to be read
until it expires or is consumed or discarded, also by new instances. It does not always: the file
that it accepts may be one that a read passes over, and the reference is made where nothing removes
the directory any more.

* `stage_spec` — the five ways through `stage_attachment`.
* `InPlace.leaves` — an attachment stays in place, whatever else happens on the root.
* `keepsPromise_iff` — a staging keeps its promise exactly when what it has made can be undone and
  what it has accepted can be read.
-/

namespace GoAgent.Attachments.Filesystem

open GoAgent.Foundation

variable {host : Host} {settings : Settings} {c : Call} {s : Staging} {w w' : World}
  {record : AttachmentRecord} {disk : List Directory} {d : Directory} {id name : String}
  {fileName mediaType : Option String} {content : Bytes} {context : AttachmentAccessContext}

/-! ## The ways through a staging -/

/-- The checks are passed, and the directory is made. -/
structure Attempted (host : Host) (settings : Settings) (s : Staging)
    (fileName mediaType : Option String) : Prop where
  name : Storage.validFileName (baseName (fileName.getD "")) = true
  media : host.lower (strip (mediaType.getD "")) ∈ settings.allowedMediaTypes
  made : s.mkdirFails = false

/-- The content gets to its place. -/
structure Copies (host : Host) (settings : Settings) (s : Staging) (name : String)
    (content : Bytes) : Prop where
  copy : s.copyFails = false
  size : content.length ≤ settings.maxSizeBytes
  nonempty : content ≠ []
  accepted : host.accepts name = true

theorem copied_eq_ok : copied host settings s name content = .ok () ↔
    Copies host settings s name content := by
  simp only [copied, except_bind_ok, exists_unit, require_ok]
  constructor
  · intro h
    exact ⟨h.1, h.2.1, h.2.2.1, h.2.2.2⟩
  · intro h
    exact ⟨h.copy, h.size, h.nonempty, h.accepted⟩

theorem normalized_eq_ok : (∃ r, normalized host settings fileName mediaType = .ok r) ↔
    Storage.validFileName (baseName (fileName.getD "")) = true ∧
      host.lower (strip (mediaType.getD "")) ∈ settings.allowedMediaTypes := by
  simp only [normalized, except_bind_ok, exists_unit, require_ok]
  constructor
  · rintro ⟨r, hname, hmedia, -⟩
    exact ⟨hname, hmedia⟩
  · intro h
    exact ⟨_, h.1, h.2, rfl⟩

/-- The directory of a copy that was interrupted. -/
def Staging.interrupted (s : Staging) : Directory where
  name := s.uuid4
  files := [("." ++ s.uuid4 ++ ".part", some s.partialFile)]

/-- The directory with the content in its place. -/
def Staging.filled (s : Staging) (name : String) (content : Bytes) : Directory where
  name := s.uuid4
  files := [(name, some content)]

/-- The reference to what is staged. -/
def Staging.reference (host : Host) (s : Staging) (fileName mediaType : Option String)
    (content : Bytes) : AttachmentRef where
  attachmentId := s.uuid4
  fileName := baseName (fileName.getD "")
  mediaType := host.lower (strip (mediaType.getD ""))
  sizeBytes := content.length
  sha256 := host.sha256 content

/-- What the call finds once it has cleaned up. -/
def Staging.cleaned (s : Staging) (w : World) : World := (s.toCall.cleanupExpired none w).2

/-- What a staging on a world comes to. -/
inductive StageCase (host : Host) (s : Staging) (fileName mediaType : Option String)
    (content : Bytes) (context : AttachmentAccessContext) (w : World) :
    Except StoreException AttachmentRef × World → Prop
  | refused {e : StoreException}
      (h : ¬Attempted host w.storage.settings s fileName mediaType) :
      StageCase host s fileName mediaType content context w (.error e, s.cleaned w)
  | interrupted {e : StoreException}
      (h : Attempted host w.storage.settings s fileName mediaType)
      (hcopy : ¬Copies host w.storage.settings s (baseName (fileName.getD "")) content) :
      StageCase host s fileName mediaType content context w (.error e, { s.cleaned w with
        disk := (s.cleaned w).disk ++ (s.rmtree s.interrupted).toList })
  | rejected {e : StoreException}
      (h : Attempted host w.storage.settings s fileName mediaType)
      (hcopy : Copies host w.storage.settings s (baseName (fileName.getD "")) content)
      (hname : isBlank (baseName (fileName.getD "")) = true) :
      StageCase host s fileName mediaType content context w (.error e, { s.cleaned w with
        disk := (s.cleaned w).disk ++ [s.filled (baseName (fileName.getD "")) content] })
  | unlisted {e : StoreException}
      (h : Attempted host w.storage.settings s fileName mediaType)
      (hcopy : Copies host w.storage.settings s (baseName (fileName.getD "")) content)
      (hname : isBlank (baseName (fileName.getD "")) = false) (hmanifest : s.manifestFails = true) :
      StageCase host s fileName mediaType content context w (.error e, { s.cleaned w with
        disk := (s.cleaned w).disk ++
          (s.rmtree (s.filled (baseName (fileName.getD "")) content)).toList })
  | staged
      (h : Attempted host w.storage.settings s fileName mediaType)
      (hcopy : Copies host w.storage.settings s (baseName (fileName.getD "")) content)
      (hname : isBlank (baseName (fileName.getD "")) = false) (hmanifest : s.manifestFails = false)
      (record : AttachmentRecord) (hrecord : record = stagedRecord w.storage.settings s
        (s.reference host fileName mediaType content) context) :
      StageCase host s fileName mediaType content context w (.ok record.reference, {
        storage := { (s.cleaned w).storage with
          records := (s.cleaned w).storage.records ++ [record] }
        disk := (s.cleaned w).disk ++ [{ s.filled (baseName (fileName.getD "")) content with
          manifest := some record.manifest }] })

/-- What a call of `stage_attachment` can count on: the id is new, the records of the instance have
such ids, and its settings and the context went through their constructors. -/
structure Ready (s : Staging) (context : AttachmentAccessContext) (w : World) : Prop where
  generated : isHexId false s.uuid4 = true
  absent : isDir s.uuid4 w.disk = false
  unknown : s.uuid4 ∉ w.storage.records.map AttachmentRecord.id
  ids : ∀ r ∈ w.storage.records, resolveAttachmentDir r.id = some r.id
  media : ∀ media ∈ w.storage.settings.allowedMediaTypes, isBlank media = false
  made : AttachmentAccessContext.make context.subject context.conversationId = .ok context

theorem rmtree_name {left : Directory} (h : c.rmtree d = some left) : left.name = d.name := by
  unfold Call.rmtree at h
  obtain ⟨_, -, rfl⟩ := Option.map_eq_some_iff.1 h
  rfl

theorem isDir_eq_false : isDir name disk = false ↔ ∀ d ∈ disk, d.name ≠ name := by
  unfold isDir
  rw [Option.isSome_eq_false_iff, Option.isNone_iff_eq_none, lookup_eq_none_iff, List.mem_map]
  constructor
  · intro h d hd hname
    exact h ⟨d, hd, hname⟩
  · rintro h ⟨d, hd, hname⟩
    exact h d hd hname

theorem isDir_rmtreeAt {j : String} (h : isDir name disk = false) :
    isDir name (c.rmtreeAt j disk) = false := by
  rw [isDir_eq_false] at h ⊢
  intro d hd
  obtain ⟨d', hd', hleft⟩ := List.mem_filterMap.1 hd
  split_ifs at hleft
  · rw [rmtree_name hleft]
    exact h d' hd'
  · rw [← Option.some.inj hleft]
    exact h d' hd'

theorem isDir_removeAttachmentDir (h : isDir name disk = false) :
    isDir name (c.removeAttachmentDir id disk).2 = false := by
  unfold Call.removeAttachmentDir
  split
  · exact h
  · exact isDir_rmtreeAt h

theorem isDir_expireRecords {now : Int} {records : List AttachmentRecord}
    (h : isDir name disk = false) :
    isDir name (c.expireRecords now records disk).2.2 = false := by
  induction records generalizing disk with
  | nil => exact h
  | cons r rs ih =>
    unfold Call.expireRecords
    split_ifs
    · exact ih h
    · exact ih (isDir_removeAttachmentDir h)

/-- A cleanup makes no directory. -/
theorem isDir_cleanupExpired {t : Option Int} (h : isDir name w.disk = false) :
    isDir name (c.cleanupExpired t w).2.disk = false := by
  have hexpired : isDir name (c.expireRecords (t.getD c.now) w.storage.records w.disk).2.2 =
      false := isDir_expireRecords h
  rw [isDir_eq_false] at hexpired ⊢
  intro d hd
  obtain ⟨d', hd', hleft⟩ := List.mem_filterMap.1 hd
  split_ifs at hleft
  · rw [← Option.some.inj hleft]
    exact hexpired d' hd'
  · rw [rmtree_name hleft]
    exact hexpired d' hd'

/-- A directory that was just made is removed. -/
theorem rmtreeAt_append (h : isDir d.name disk = false) :
    c.rmtreeAt d.name (disk ++ [d]) = disk ++ (c.rmtree d).toList := by
  rw [isDir_eq_false] at h
  unfold Call.rmtreeAt
  rw [List.filterMap_append]
  congr 1
  · rw [List.filterMap_congr fun d' hd' => if_neg (h d' hd'), List.filterMap_some]
  · rw [List.filterMap_cons, if_pos rfl]
    cases c.rmtree d <;> rfl

theorem Ready.subject (h : Ready s context w) : isBlank context.subject = false := by
  have hmade := h.made
  simp only [AttachmentAccessContext.make, except_bind_ok, exists_unit, require_ok] at hmade
  exact hmade.1

/-- The value that `stage_attachment` builds is refused for its file name only. -/
theorem checked_reference (fileName : Option String) (content : Bytes) (h : Ready s context w)
    (hmedia : host.lower (strip (mediaType.getD "")) ∈ w.storage.settings.allowedMediaTypes) :
    (s.reference host fileName mediaType content).checked =
      if isBlank (baseName (fileName.getD "")) = true then
        .error (.valueError "attachment file_name must be non-empty")
      else .ok (s.reference host fileName mediaType content) := by
  have hid : isHexId false (s.reference host fileName mediaType content).attachmentId = true :=
    h.generated
  have htype : isBlank (s.reference host fileName mediaType content).mediaType = false :=
    h.media _ hmedia
  have hsha : isHexDigest (s.reference host fileName mediaType content).sha256 = true :=
    host.hexdigest content
  unfold AttachmentRef.checked
  rw [hid, htype, hsha]
  by_cases hname : isBlank (baseName (fileName.getD "")) = true
  · have hblank : isBlank (s.reference host fileName mediaType content).fileName = true := hname
    rw [hblank, if_pos hname]
    rfl
  · have hblank : isBlank (s.reference host fileName mediaType content).fileName = false :=
      Bool.eq_false_iff.2 hname
    rw [hblank, if_neg hname]
    rfl

theorem normalized_ok {r : String × String}
    (h : normalized host settings fileName mediaType = .ok r) :
    r = (baseName (fileName.getD ""), host.lower (strip (mediaType.getD ""))) := by
  simp only [normalized, except_bind_ok, exists_unit, require_ok] at h
  exact (Except.ok.inj h.2.2).symm

theorem stage_spec (host : Host) (fileName mediaType : Option String) (content : Bytes)
    (h : Ready s context w) : StageCase host s fileName mediaType content context w
    (w.stageAttachment host s fileName mediaType content context) := by
  have habsent : isDir s.uuid4 (s.cleaned w).disk = false := isDir_cleanupExpired h.absent
  have hsettings : (s.cleaned w).storage.settings = w.storage.settings := rfl
  unfold World.stageAttachment
  rw [← Staging.cleaned]
  dsimp only
  rw [if_neg (Bool.eq_false_iff.1 h.subject), hsettings, habsent, Bool.or_false]
  cases hn : normalized host w.storage.settings fileName mediaType with
  | error e =>
    apply StageCase.refused
    intro ha
    obtain ⟨r, hr⟩ := normalized_eq_ok.2 ⟨ha.name, ha.media⟩
    rw [hn] at hr
    cases hr
  | ok r =>
    obtain ⟨hname, hmedia⟩ := normalized_eq_ok.1 ⟨r, hn⟩
    obtain rfl := normalized_ok hn
    dsimp only
    by_cases hmade : s.mkdirFails = true
    · rw [if_pos hmade]
      exact .refused fun ha => absurd ha.made (Bool.not_eq_false _ ▸ hmade)
    rw [if_neg hmade]
    have ha : Attempted host w.storage.settings s fileName mediaType :=
      ⟨hname, hmedia, Bool.eq_false_iff.2 hmade⟩
    cases hc : copied host w.storage.settings s (baseName (fileName.getD "")) content with
    | error e =>
      have hcopy : ¬Copies host w.storage.settings s (baseName (fileName.getD "")) content := by
        rw [← copied_eq_ok, hc]
        exact fun h => nomatch h
      dsimp only
      have hleft := rmtreeAt_append (c := s.toCall) (d := s.interrupted) habsent
      exact hleft ▸ .interrupted ha hcopy
    | ok =>
      have hcopy := copied_eq_ok.1 hc
      have hchecked := checked_reference fileName content h hmedia
      unfold Staging.reference at hchecked
      dsimp only
      rw [hchecked]
      by_cases hblank : isBlank (baseName (fileName.getD "")) = true
      · rw [if_pos hblank]
        exact .rejected ha hcopy hblank
      have hfull := Bool.eq_false_iff.2 hblank
      rw [if_neg hblank]
      dsimp only
      by_cases hmanifest : s.manifestFails = true
      · rw [if_pos hmanifest]
        have hleft := rmtreeAt_append (c := s.toCall)
          (d := s.filled (baseName (fileName.getD "")) content) habsent
        exact hleft ▸ .unlisted ha hcopy hfull hmanifest
      · rw [if_neg hmanifest]
        exact .staged ha hcopy hfull (Bool.eq_false_iff.2 hmanifest) _ rfl

/-! ## An attachment in its place -/

/-- The record and the directory of an attachment are there, and no others of its id. -/
structure InPlace (record : AttachmentRecord) (d : Directory) (w : World) : Prop where
  ids : ∀ r ∈ w.storage.records, resolveAttachmentDir r.id = some r.id
  record : Sole AttachmentRecord.id record w.storage.records
  directory : Sole Directory.name d w.disk

/-- What is known of a staged record and its directory: they are of one attachment, whose content
can be read. -/
structure Whole (host : Host) (record : AttachmentRecord) (d : Directory) (content : Bytes) :
    Prop where
  name : d.name = record.id
  available : record.status = .available
  content : ∀ disk, lookup Directory.name record.id disk = some d →
    readVerifiedContent host disk record = some content
  manifest : ∀ settings : Settings, record.reference.mediaType ∈ settings.allowedMediaTypes →
    readManifest settings d = some record

theorem InPlace.lookup_record (h : InPlace record d w) :
    lookup AttachmentRecord.id record.id w.storage.records = some record := h.record.lookup

theorem InPlace.lookup_directory (h : InPlace record d w) (hd : d.name = record.id) :
    lookup Directory.name record.id w.disk = some d := hd ▸ h.directory.lookup

theorem sole_rmtreeAt (h : Sole Directory.name d disk) (hne : d.name ≠ name) :
    Sole Directory.name d (c.rmtreeAt name disk) := by
  apply h.filterMap (if_neg hne)
  intro x y hxy
  split_ifs at hxy
  · exact rmtree_name hxy
  · rw [Option.some.inj hxy]

theorem sole_removeAttachmentDir (h : Sole Directory.name d disk)
    (hid : resolveAttachmentDir id = some id) (hne : d.name ≠ id) :
    Sole Directory.name d (c.removeAttachmentDir id disk).2 := by
  unfold Call.removeAttachmentDir
  rw [hid]
  exact sole_rmtreeAt h hne

theorem sole_expireRecords {now : Int} {records : List AttachmentRecord}
    (hids : ∀ r ∈ records, resolveAttachmentDir r.id = some r.id)
    (hlive : ∀ r ∈ records, r.id = d.name → now < r.expiresAt) (h : Sole Directory.name d disk) :
    Sole Directory.name d (c.expireRecords now records disk).2.2 := by
  induction records generalizing disk with
  | nil => exact h
  | cons r rs ih =>
    have hids' := fun r' hr' => hids r' (List.mem_cons_of_mem _ hr')
    have hlive' := fun r' hr' => hlive r' (List.mem_cons_of_mem _ hr')
    unfold Call.expireRecords
    split_ifs with hkeep
    · exact ih hids' hlive' h
    · apply ih hids' hlive'
      apply sole_removeAttachmentDir h (hids r List.mem_cons_self)
      intro he
      exact hkeep (Or.inr (hlive r List.mem_cons_self he.symm))

theorem InPlace.cleaned {t : Option Int} (h : InPlace record d w) (hd : d.name = record.id)
    (hnow : t.getD c.now < record.expiresAt) : InPlace record d (c.cleanupExpired t w).2 := by
  have hrecords : Sole AttachmentRecord.id record (c.cleanupExpired t w).2.storage.records := by
    rw [cleanupExpired_records]
    exact h.record.map (if_pos (Or.inr hnow)) fun _ => at_id
  refine ⟨?_, hrecords, ?_⟩
  · intro r hr
    rw [cleanupExpired_records] at hr
    obtain ⟨r', hr', rfl⟩ := List.mem_map.1 hr
    rw [at_id]
    exact h.ids r' hr'
  · have hlive : ∀ r ∈ w.storage.records, r.id = d.name → t.getD c.now < r.expiresAt := by
      intro r hr he
      rw [h.record.2 r hr (he.trans hd)]
      exact hnow
    have hmem : d.name ∈
        (c.expireRecords (t.getD c.now) w.storage.records w.disk).2.1.map AttachmentRecord.id := by
      rw [hd]
      exact List.mem_map_of_mem hrecords.1
    apply (sole_expireRecords h.ids hlive h.directory).filterMap (if_pos hmem)
    intro x y hxy
    split_ifs at hxy
    · rw [Option.some.inj hxy]
    · exact rmtree_name hxy

/-- Another attachment changes its status and loses its directory. -/
theorem InPlace.dropped {status : AttachmentStatus} (h : InPlace record d w)
    (hd : d.name = record.id) (hid : resolveAttachmentDir id = some id) (hne : id ≠ record.id) :
    InPlace record d ((w.setStatus id status).removeDir c id) := by
  refine ⟨?_, ?_, ?_⟩
  · intro r hr
    obtain ⟨r', hr', rfl⟩ := List.mem_map.1 hr
    rw [setStatus_id]
    exact h.ids r' hr'
  · exact h.record.map (if_neg hne.symm) fun _ => setStatus_id
  · exact sole_removeAttachmentDir h.directory hid (hd ▸ hne.symm)

/-- Another attachment is discarded. -/
theorem InPlace.forgotten (h : InPlace record d w) (hd : d.name = record.id)
    (hid : resolveAttachmentDir id = some id) (hne : id ≠ record.id) :
    InPlace record d ((w.removeDir c id).forget id) := by
  refine ⟨?_, ?_, ?_⟩
  · intro r hr
    exact h.ids r (List.mem_of_mem_filter hr)
  · exact h.record.filter (decide_eq_true hne.symm)
  · exact sole_removeAttachmentDir h.directory hid (hd ▸ hne.symm)

theorem permitted_of_recordForContext {records : List AttachmentRecord}
    (h : recordForContext records id context = some record) : Permitted record context := by
  unfold recordForContext at h
  split at h
  · cases h
  · next r hr =>
    split_ifs at h with hsubject hconversation
    obtain rfl := Option.some.inj h
    refine ⟨not_not.1 hsubject, ?_⟩
    by_cases hnone : r.conversationId = none
    · exact Or.inl hnone
    · exact Or.inr (not_not.1 fun hne => hconversation ⟨hnone, hne⟩)

section

variable {attachment : Attachment}

/-- A record that is found for another id than that of an attachment in place. -/
theorem InPlace.resolved {r : AttachmentRecord} (h : InPlace record d w)
    (hr : recordForContext w.storage.records id context = some r) :
    resolveAttachmentDir id = some id := by
  have hfound := lookup_of_recordForContext hr
  rw [← key_of_lookup hfound]
  exact h.ids r (mem_of_lookup hfound)

theorem InPlace.found {r : AttachmentRecord} (h : InPlace record d w)
    (hr : recordForContext w.storage.records record.id context = some r) : r = record := by
  have hfound := lookup_of_recordForContext hr
  rw [h.lookup_record] at hfound
  exact (Option.some.inj hfound).symm

theorem InPlace.read (h : InPlace record d w) (hw : Whole host record d content)
    (hnow : c.now < record.expiresAt) :
    InPlace record d (w.read host c attachment context).2 := by
  have hcleaned : InPlace record d (c.cleanupExpired none w).2 := h.cleaned hw.name hnow
  unfold World.read
  dsimp only
  split
  · exact hcleaned
  next id hid =>
  split
  · exact hcleaned
  next r hr =>
  split_ifs with hover
  · exact hcleaned
  split
  · next hnone =>
    apply hcleaned.dropped hw.name (hcleaned.resolved hr)
    intro he
    obtain rfl := hcleaned.found (he ▸ hr)
    rw [hw.content _ (hcleaned.lookup_directory hw.name)] at hnone
    cases hnone
  · exact hcleaned

theorem InPlace.consume (h : InPlace record d w) (hw : Whole host record d content)
    (hnow : c.now < record.expiresAt)
    (hother : attachmentId attachment = some record.id → ¬Permitted record context) :
    InPlace record d (w.consume host c attachment context).2 := by
  have hcleaned : InPlace record d (c.cleanupExpired none w).2 := h.cleaned hw.name hnow
  unfold World.consume
  dsimp only
  split
  · exact hcleaned
  next id hid =>
  split
  · exact hcleaned
  next r hr =>
  have hne : id ≠ record.id := by
    intro he
    obtain rfl := hcleaned.found (he ▸ hr)
    exact hother (he ▸ hid) (permitted_of_recordForContext hr)
  split_ifs with hover
  · exact hcleaned
  split
  · exact hcleaned.dropped hw.name (hcleaned.resolved hr) hne
  · exact hcleaned.dropped hw.name (hcleaned.resolved hr) hne

theorem InPlace.discard (h : InPlace record d w) (hd : d.name = record.id)
    (hnow : c.now < record.expiresAt)
    (hother : attachmentId attachment = some record.id → ¬Permitted record context) :
    InPlace record d (w.discard c attachment context).2 := by
  have hcleaned : InPlace record d (c.cleanupExpired none w).2 := h.cleaned hd hnow
  unfold World.discard
  dsimp only
  split
  · exact hcleaned
  next id hid =>
  split
  · exact hcleaned
  next r hr =>
  apply hcleaned.forgotten hd (hcleaned.resolved hr)
  intro he
  obtain rfl := hcleaned.found (he ▸ hr)
  exact hother (he ▸ hid) (permitted_of_recordForContext hr)

end

/-- Another attachment is staged. -/
theorem InPlace.stage (h : InPlace record d w) (hd : d.name = record.id)
    (hnow : s.now < record.expiresAt) (hid : isHexId false s.uuid4 = true)
    (hne : s.uuid4 ≠ record.id) :
    InPlace record d (w.stageAttachment host s fileName mediaType content context).2 := by
  have hcleaned : InPlace record d (s.cleaned w) := h.cleaned hd hnow
  have hmade (made : Directory) (hname : made.name = s.uuid4) :
      Sole Directory.name d ((s.cleaned w).disk ++ [made]) := by
    apply hcleaned.directory.append
    intro x hx
    rw [List.mem_singleton.1 hx, hname, hd]
    exact hne
  have hremoved (made : Directory) (hname : made.name = s.uuid4) :
      Sole Directory.name d (s.rmtreeAt s.uuid4 ((s.cleaned w).disk ++ [made])) :=
    sole_rmtreeAt (hmade made hname) (hd ▸ hne.symm)
  unfold World.stageAttachment
  rw [← Staging.cleaned]
  dsimp only
  split
  · exact hcleaned
  split
  · exact hcleaned
  split
  · exact hcleaned
  split
  · exact ⟨hcleaned.ids, hcleaned.record, hremoved _ rfl⟩
  split
  · exact ⟨hcleaned.ids, hcleaned.record, hmade _ rfl⟩
  next reference hchecked =>
  have hreference : reference.attachmentId = s.uuid4 := by
    simp only [AttachmentRef.checked, except_bind_ok, exists_unit, require_ok] at hchecked
    rw [← Except.ok.inj hchecked.2.2.2.2]
  split
  · exact ⟨hcleaned.ids, hcleaned.record, hremoved _ rfl⟩
  refine ⟨?_, ?_, hmade _ rfl⟩
  · intro r hr
    rcases List.mem_append.1 hr with hr | hr
    · exact hcleaned.ids r hr
    · rw [List.mem_singleton.1 hr]
      show resolveAttachmentDir reference.attachmentId = some reference.attachmentId
      rw [hreference]
      exact resolve_of_generated hid
  · apply hcleaned.record.append
    intro x hx
    rw [List.mem_singleton.1 hx]
    show reference.attachmentId ≠ record.id
    rw [hreference]
    exact hne

theorem restoredRecord_id {now : Int} {r : AttachmentRecord}
    (h : restoredRecord host settings now disk d = some r) : r.id = d.name := by
  obtain ⟨_, -, -, hid, -⟩ := readManifest_spec (restoredRecord_spec h).1
  exact hid

/-- A new instance takes the attachment from the disk. -/
theorem InPlace.restored (h : InPlace record d w) (hw : Whole host record d content)
    (hnow : c.now < record.expiresAt)
    (hmedia : record.reference.mediaType ∈ settings.allowedMediaTypes) :
    InPlace record d (restoreRecords host settings c w.disk) := by
  have hrestored : restoredRecord host settings c.now w.disk d = some record := by
    unfold restoredRecord
    rw [hw.manifest settings hmedia]
    dsimp only
    rw [hw.content _ (h.lookup_directory hw.name), if_neg]
    intro hbad
    rcases hbad with hstatus | hover | hnone
    · exact hstatus hw.available
    · exact absurd hnow (Int.not_lt.2 hover)
    · cases hnone
  refine ⟨?_, ?_, ?_⟩
  · intro r hr
    obtain ⟨d', -, hr'⟩ := List.mem_filterMap.1 hr
    exact resolve_of_generated (generated_of_readManifest (restoredRecord_spec hr').1)
  · exact h.directory.filterMap hrestored fun x y hxy => restoredRecord_id hxy
  · apply h.directory.filterMap
    · rw [hrestored, if_pos Option.isSome_some]
    · intro x y hxy
      split_ifs at hxy
      · rw [Option.some.inj hxy]
      · exact rmtree_name hxy

/-- What may happen to a root while an attachment is to stay: until it expires, anything but that
someone who may have it consumes or discards it, that an instance is configured without its media
type, or that others change the files. -/
def Action.Spares (record : AttachmentRecord) : Action → Prop
  | .stage s .. =>
    s.now < record.expiresAt ∧ isHexId false s.uuid4 = true ∧ s.uuid4 ≠ record.id
  | .read c .. => c.now < record.expiresAt
  | .consume c attachment context | .discard c attachment context =>
    c.now < record.expiresAt ∧
      (attachmentId attachment = some record.id → ¬Permitted record context)
  | .cleanup c now => now.getD c.now < record.expiresAt
  | .restart c settings =>
    c.now < record.expiresAt ∧ record.reference.mediaType ∈ settings.allowedMediaTypes
  | .disturb _ => False

theorem InPlace.leaves {a : Action} (h : InPlace record d w) (hw : Whole host record d content)
    (ha : a.Spares record) : InPlace record d (a.leaves host w) := by
  cases a with
  | stage => exact h.stage hw.name ha.1 ha.2.1 ha.2.2
  | read => exact h.read hw ha
  | consume => exact h.consume hw ha.1 ha.2
  | discard => exact h.discard hw.name ha.1 ha.2
  | cleanup => exact h.cleaned hw.name ha
  | restart => exact h.restored hw ha.1 ha.2
  | disturb => exact ha.elim

/-- An attachment is spared by what happens. -/
structure Spared (host : Host) (record : AttachmentRecord) (w : World) (a : Action) (w' : World) :
    Prop where
  world : w' = a.leaves host w
  spares : a.Spares record

/-- **An attachment stays in place** in every run that spares it. -/
theorem InPlace.run {actions : List Action} (h : InPlace record d w) (hw : Whole host record d content)
    (hs : Steps (Spared host record) w actions w') : InPlace record d w' := by
  induction hs with
  | nil => exact h
  | cons ha _ ih =>
    apply ih
    rw [ha.world]
    exact h.leaves hw ha.spares

/-- What is in place is given to whoever may have it. -/
theorem InPlace.gives {attachment : Attachment} (h : InPlace record d w)
    (hw : Whole host record d content) (hid : attachmentId attachment = some record.id)
    (hcontext : Permitted record context) (hnow : c.now < record.expiresAt) :
    (w.read host c attachment context).1 = availableResult record content := by
  obtain ⟨storage, disk⟩ := w
  apply read_of_kept h.ids _ h.lookup_record (hw.content _ (h.lookup_directory hw.name))
    hw.available hid hcontext
  intro r hr he
  rw [h.record.2 r hr he]
  exact hnow

/-! ## The promise -/

/-- What is promised of a staging: if it raises, there is no directory and no record of it, and all
is as it found it; if it returns a reference, then in whatever comes after, until the attachment
expires, is consumed or discarded, a read by the same context gives exactly what was staged. -/
def KeepsPromise (host : Host) (s : Staging) (fileName mediaType : Option String)
    (content : Bytes) (context : AttachmentAccessContext) (w : World) : Prop :=
  match w.stageAttachment host s fileName mediaType content context with
  | (.error _, left) => left = s.cleaned w ∧ isDir s.uuid4 left.disk = false ∧
      s.uuid4 ∉ left.storage.records.map AttachmentRecord.id
  | (.ok reference, left) =>
    let record := stagedRecord w.storage.settings s reference context
    ∀ actions w', Steps (Spared host record) left actions w' → ∀ c attachment,
      c.now < record.expiresAt →
        attachment = .ref reference ∨ attachment = .id reference.attachmentId →
          (w'.read host c attachment context).1 =
            { status := .available, attachment := some reference, content := some content }

/-- The condition: the file that is put in its place has a name that is not blank, and that a read
does not take for one being written; and where the copy or the manifest fails, the directory can be
removed. -/
def Undone (host : Host) (settings : Settings) (s : Staging) (fileName mediaType : Option String)
    (content : Bytes) : Prop :=
  Attempted host settings s fileName mediaType →
    (¬Copies host settings s (baseName (fileName.getD "")) content →
      s.leftover s.interrupted = none) ∧
    (Copies host settings s (baseName (fileName.getD "")) content →
      isBlank (baseName (fileName.getD "")) = false ∧
      (s.manifestFails = true →
        s.leftover (s.filled (baseName (fileName.getD "")) content) = none) ∧
      (s.manifestFails = false → (baseName (fileName.getD "")).endsWith ".part" = false))

theorem rmtree_eq_none : c.rmtree d = none ↔ c.leftover d = none := Option.map_eq_none_iff

/-- A directory that was made and is to be removed is gone exactly if nothing is left of it. -/
theorem isDir_left (h : isDir d.name disk = false) :
    isDir d.name (disk ++ (c.rmtree d).toList) = false ↔ c.leftover d = none := by
  rw [← rmtree_eq_none]
  rw [isDir_eq_false] at h ⊢
  constructor
  · intro hleft
    cases hd : c.rmtree d with
    | none => rfl
    | some left =>
      have hmem : left ∈ disk ++ (c.rmtree d).toList := by
        rw [hd]
        exact List.mem_append_right _ (List.mem_singleton.2 rfl)
      exact absurd (rmtree_name hd) (hleft left hmem)
  · intro hd d' hd'
    rw [hd, Option.toList_none, List.append_nil] at hd'
    exact h d' hd'

section

variable {reference : AttachmentRef}

/-- The record and the directory of what was staged are in place. -/
theorem Ready.inPlace (h : Ready s context w) (record : AttachmentRecord)
    (hid : record.id = s.uuid4) (hd : d.name = s.uuid4) :
    InPlace record d {
      storage := { (s.cleaned w).storage with records := (s.cleaned w).storage.records ++ [record] }
      disk := (s.cleaned w).disk ++ [d] } := by
  have habsent : isDir s.uuid4 (s.cleaned w).disk = false := isDir_cleanupExpired h.absent
  have hrecords : (s.cleaned w).storage.records =
      w.storage.records.map (AttachmentRecord.at s.now) := cleanupExpired_records
  refine ⟨?_, ?_, ?_⟩
  · intro r hr
    rcases List.mem_append.1 hr with hr | hr
    · rw [hrecords] at hr
      obtain ⟨r', hr', rfl⟩ := List.mem_map.1 hr
      rw [at_id]
      exact h.ids r' hr'
    · rw [List.mem_singleton.1 hr, hid]
      exact resolve_of_generated h.generated
  · apply sole_of_new
    rw [hid, hrecords, List.map_map]
    intro hmem
    obtain ⟨r, hr, he⟩ := List.mem_map.1 hmem
    exact h.unknown (List.mem_map.2 ⟨r, hr, at_id.symm.trans he⟩)
  · apply sole_of_new
    rw [hd]
    intro hmem
    obtain ⟨d', hd', he⟩ := List.mem_map.1 hmem
    exact (isDir_eq_false.1 habsent) d' hd' he

theorem attachmentId_of_resolved (hid : resolveAttachmentDir id = some id) :
    attachmentId (.id id) = some id := hid

/-- What was staged under a name that a read does not pass over is whole. -/
theorem Ready.whole (h : Ready s context w) (content : Bytes)
    (ha : Attempted host w.storage.settings s fileName mediaType)
    (hname : isBlank (baseName (fileName.getD "")) = false)
    (hpart : (baseName (fileName.getD "")).endsWith ".part" = false) :
    Whole host
      (stagedRecord w.storage.settings s (s.reference host fileName mediaType content) context)
      { s.filled (baseName (fileName.getD "")) content with
        manifest := some (stagedRecord w.storage.settings s
          (s.reference host fileName mediaType content) context).manifest } content := by
  have hvalid := ha.name
  simp only [Storage.validFileName, Bool.and_eq_true, Bool.not_eq_true', decide_eq_true_eq] at hvalid
  refine ⟨rfl, rfl, ?_, ?_⟩
  · intro disk hdisk
    have hresolved := resolve_of_generated h.generated
    exact readVerifiedContent_written hresolved ⟨hpart, hvalid.2⟩ hdisk rfl rfl rfl
  · intro settings hmedia
    have hchecked := checked_reference fileName content h ha.media
    rw [hname, if_neg Bool.false_ne_true] at hchecked
    have hsafe : isSafeFileName (baseName (fileName.getD "")) = true := by
      unfold isSafeFileName
      rw [baseName_baseName]
      simp [hvalid.1.1.1, hvalid.2]
    have hrefused : ¬((s.reference host fileName mediaType content).attachmentId ≠ s.uuid4 ∨
        (s.reference host fileName mediaType content).mediaType ∉ settings.allowedMediaTypes ∨
          isSafeFileName (s.reference host fileName mediaType content).fileName = false) := by
      rintro (hid | htype | hunsafe)
      · exact hid rfl
      · exact htype hmedia
      · exact absurd (hsafe.symm.trans hunsafe) Bool.noConfusion
    have hsame : ¬s.uuid4 ≠ (s.reference host fileName mediaType content).attachmentId :=
      not_not.2 rfl
    unfold readManifest AttachmentRecord.manifest stagedRecord Staging.filled
    dsimp only
    rw [if_neg hsame, hchecked]
    dsimp only
    rw [if_neg hrefused, h.made]

theorem Permitted.of_staged (settings : Settings) :
    Permitted (stagedRecord settings s reference context) context := ⟨rfl, Or.inr rfl⟩

theorem stagedRecord_live (settings : Settings) :
    s.now < (stagedRecord settings s reference context).expiresAt := by
  have hpos := settings.retention_pos
  show s.now < s.now + s.elapsed + settings.retentionSeconds * 1000000
  omega

/-- The names of a reference to what was staged. -/
theorem attachmentId_of_named {attachment : Attachment} (hid : isHexId false reference.attachmentId)
    (h : attachment = .ref reference ∨ attachment = .id reference.attachmentId) :
    attachmentId attachment = some reference.attachmentId := by
  rcases h with rfl | rfl
  · exact resolve_of_generated hid
  · exact resolve_of_generated hid

/-- A file whose name a read passes over is not read. -/
theorem read_of_passed_over (host : Host) {attachment : Attachment} (h : InPlace record d w)
    (hd : d.name = record.id) (hstatus : record.status = .available) (hfiles : d.contentFiles = [])
    (hid : attachmentId attachment = some record.id) (hcontext : Permitted record context)
    (hnow : c.now < record.expiresAt) :
    (w.read host c attachment context).1.status = .missing := by
  have hcleaned : InPlace record d (c.cleanupExpired none w).2 := h.cleaned hd hnow
  have hread : readVerifiedContent host (c.cleanupExpired none w).2.disk record = none := by
    unfold readVerifiedContent
    rw [h.ids record h.record.1]
    dsimp only
    rw [hcleaned.lookup_directory hd]
    dsimp only
    rw [hfiles]
  unfold World.read
  dsimp only
  rw [hid]
  dsimp only
  rw [recordForContext_of_permitted hcleaned.lookup_record hcontext]
  dsimp only
  rw [if_neg (not_not.2 hstatus), hread]
  rfl

end

/-- **What a staging leaves.** Either `stage_attachment` raises and all is as it was found, or it
returns a reference by which the same context reads exactly what was staged, in every run until the
attachment expires, is consumed or discarded, also by new instances; and it does so exactly if the
name of the file that gets to its place is not blank and does not end with `.part`, and the directory
of a copy or a manifest that fails can be removed. -/
theorem keepsPromise_iff (h : Ready s context w) :
    KeepsPromise host s fileName mediaType content context w ↔
      Undone host w.storage.settings s fileName mediaType content := by
  have habsent : isDir s.uuid4 (s.cleaned w).disk = false := isDir_cleanupExpired h.absent
  have hrecords : (s.cleaned w).storage.records =
      w.storage.records.map (AttachmentRecord.at s.now) := cleanupExpired_records
  have hunknown : s.uuid4 ∉ (s.cleaned w).storage.records.map AttachmentRecord.id := by
    rw [hrecords, List.map_map]
    intro hmem
    obtain ⟨r, hr, he⟩ := List.mem_map.1 hmem
    exact h.unknown (List.mem_map.2 ⟨r, hr, at_id.symm.trans he⟩)
  have hcase := stage_spec host fileName mediaType content h
  unfold KeepsPromise Undone
  generalize w.stageAttachment host s fileName mediaType content context = outcome at hcase
  cases hcase with
  | refused hno =>
    dsimp only
    exact ⟨fun _ ha => absurd ha hno, fun _ => ⟨rfl, habsent, hunknown⟩⟩
  | interrupted ha hcopy =>
    have hleft := isDir_left (c := s.toCall) (d := s.interrupted) habsent
    dsimp only
    constructor
    · intro hkept _
      exact ⟨fun _ => hleft.1 hkept.2.1, fun hcopy' => absurd hcopy' hcopy⟩
    · intro hundone
      have hgone := (hundone ha).1 hcopy
      refine ⟨?_, hleft.2 hgone, hunknown⟩
      rw [rmtree_eq_none.2 hgone, Option.toList_none, List.append_nil]
  | rejected ha hcopy hname =>
    dsimp only
    constructor
    · intro hkept
      have hmem : s.filled (baseName (fileName.getD "")) content ∈ (s.cleaned w).disk ++
          [s.filled (baseName (fileName.getD "")) content] :=
        List.mem_append_right _ (List.mem_singleton.2 rfl)
      exact absurd rfl (isDir_eq_false.1 hkept.2.1 _ hmem)
    · intro hundone
      have hfull := ((hundone ha).2 hcopy).1
      rw [hname] at hfull
      cases hfull
  | unlisted ha hcopy hname hmanifest =>
    have hleft := isDir_left (c := s.toCall)
      (d := s.filled (baseName (fileName.getD "")) content) habsent
    dsimp only
    constructor
    · intro hkept _
      refine ⟨fun hno => absurd hcopy hno, fun _ => ⟨hname, fun _ => hleft.1 hkept.2.1, ?_⟩⟩
      intro hwritten
      rw [hmanifest] at hwritten
      cases hwritten
    · intro hundone
      have hgone := ((hundone ha).2 hcopy).2.1 hmanifest
      refine ⟨?_, hleft.2 hgone, hunknown⟩
      rw [rmtree_eq_none.2 hgone, Option.toList_none, List.append_nil]
  | staged ha hcopy hname hmanifest record hrecord =>
    subst hrecord
    have hplace := h.inPlace
      (stagedRecord w.storage.settings s (s.reference host fileName mediaType content) context)
      (d := { s.filled (baseName (fileName.getD "")) content with
        manifest := some (stagedRecord w.storage.settings s
          (s.reference host fileName mediaType content) context).manifest }) rfl rfl
    dsimp only
    constructor
    · intro hkept _
      refine ⟨fun hno => absurd hcopy hno, fun _ => ⟨hname, ?_, fun _ => ?_⟩⟩
      · intro hfails
        rw [hmanifest] at hfails
        cases hfails
      · by_contra hpart
        have hfiles : (s.filled (baseName (fileName.getD "")) content).contentFiles = [] := by
          simp [Staging.filled, Directory.contentFiles, Bool.not_eq_false _ ▸ hpart]
        -- a read at the time of the staging finds no file
        have hmissing := read_of_passed_over host (c := callAt s.now) hplace rfl rfl hfiles
          (attachmentId_of_named h.generated (Or.inl rfl)) (Permitted.of_staged _)
          (stagedRecord_live _)
        rw [hkept [] _ (.nil _) (callAt s.now) (.ref _) (stagedRecord_live _) (Or.inl rfl)] at hmissing
        cases hmissing
    · intro hundone actions w' hs c attachment hnow hnamed
      have hwhole := h.whole content ha hname
        (((hundone ha).2 hcopy).2.2 hmanifest)
      exact (hplace.run hwhole hs).gives hwhole (attachmentId_of_named h.generated hnamed)
        (Permitted.of_staged _) hnow

/-- An instance that has run over its own root is ready for a new id. -/
theorem Ready.of_run {sys : System} {tr : List Event} {now : Int}
    (hs : Steps (Turn host) (opened settings now) tr sys) (hid : isHexId false s.uuid4 = true)
    (hnew : s.uuid4 ∉ sys.issued) (habsent : isDir s.uuid4 sys.world.disk = false)
    (hmedia : ∀ media ∈ sys.world.storage.settings.allowedMediaTypes, isBlank media = false)
    (hmade : AttachmentAccessContext.make context.subject context.conversationId = .ok context) :
    Ready s context sys.world := by
  obtain ⟨hsound, -⟩ := run_opened hs
  refine ⟨hid, habsent, ?_, hsound.ids, hmedia, hmade⟩
  intro hmem
  obtain ⟨r, hr, he⟩ := List.mem_map.1 hmem
  exact hnew (he ▸ hsound.issued r hr)

/-- The two bytes `hi` are staged. -/
def hiStaging : Staging := { toCall := callAt 1, uuid4 := hiId }

theorem ready_hi : Ready hiStaging alice (opened plainSettings 0).world := by
  have hid : isHexId false hiStaging.uuid4 = true := hex_hiId
  have hnew : hiStaging.uuid4 ∉ (opened plainSettings 0).issued := List.not_mem_nil
  refine Ready.of_run (.nil (opened plainSettings 0) : Steps (Turn plainHost) _ [] _) hid hnew rfl
    ?_ (by decide +kernel)
  intro media hmedia
  rw [List.mem_singleton.1 hmedia]
  decide +kernel

theorem keepsPromise_hi : KeepsPromise plainHost hiStaging (some "a.txt") (some "text/plain")
    [104, 105] alice (opened plainSettings 0).world := by
  apply (keepsPromise_iff ready_hi).2
  intro _
  refine ⟨fun _ => rfl, fun _ => ⟨by decide +kernel, fun _ => rfl, fun _ => by decide +kernel⟩⟩

/-- The file `a.part` is staged, and cannot be read. -/
theorem part_strands : ¬∀ host s fileName mediaType content context w, Ready s context w →
    KeepsPromise host s fileName mediaType content context w := by
  intro h
  have hkept := h plainHost hiStaging (some "a.part") (some "text/plain") [104, 105] alice
    (opened plainSettings 0).world ready_hi
  have hid : ((opened plainSettings 0).world.stageAttachment plainHost hiStaging (some "a.part")
      (some "text/plain") [104, 105] alice).1.toOption.map AttachmentRef.attachmentId =
        some hiId := by decide +kernel
  have hmissing : (((opened plainSettings 0).world.stageAttachment plainHost hiStaging
      (some "a.part") (some "text/plain") [104, 105] alice).2.read plainHost (callAt 1) (.id hiId)
        alice).1.content = none := by decide +kernel
  unfold KeepsPromise at hkept
  generalize (opened plainSettings 0).world.stageAttachment plainHost hiStaging (some "a.part")
    (some "text/plain") [104, 105] alice = outcome at hkept hid hmissing
  obtain ⟨result, left⟩ := outcome
  cases result with
  | error e => cases hid
  | ok reference =>
    have hreference : reference.attachmentId = hiId := Option.some.inj hid
    have hread := hkept [] left (.nil left) (callAt 1) (.id hiId) (stagedRecord_live _)
      (Or.inr (congrArg Attachment.id hreference.symm))
    rw [hread] at hmissing
    cases hmissing

end GoAgent.Attachments.Filesystem
