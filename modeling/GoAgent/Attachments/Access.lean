import GoAgent.Attachments.Filesystem
import GoAgent.Foundation.Transition

/-!
# Who is given an attachment, and how often

Every call cleans up first and then looks for a record that the caller may have; without one it answers
as for an attachment that does not exist. The state of an attachment is kept in memory and on disk:
`Sound` says that every manifest on disk is that of a record which is still available, so that a new
instance restores nothing that is over. A run may change the files at any time, but forges no manifest.

* `foreign_is_unknown` — a call for an attachment of another subject or conversation is one for an
  attachment that does not exist;
* `Fetched`, `Stages` — what the methods come to;
* `Turn.sound` — what a turn does: the storage stays sound and no record gets better;
* `given_until_over` — at most one `consume` gives the content of an attachment, nothing gives it once
  it is over, and what is given is what was staged.
-/

namespace GoAgent.Attachments.Filesystem

open GoAgent.Foundation

variable {host : Host} {c : Call} {w w' : World} {id : String} {record : AttachmentRecord}
  {records : List AttachmentRecord} {disk : List Directory} {d : Directory} {now : Int}
  {attachment : Attachment} {context : AttachmentAccessContext} {content : Bytes}

/-! ## What a cleanup leaves -/

/-- A record at the reference time. -/
def AttachmentRecord.at (now : Int) (record : AttachmentRecord) : AttachmentRecord :=
  if record.status ≠ .available ∨ now < record.expiresAt then record
  else { record with status := .expired }

@[simp] theorem at_id : (record.at now).id = record.id := by
  unfold AttachmentRecord.at
  split <;> rfl

@[simp] theorem at_reference : (record.at now).reference = record.reference := by
  unfold AttachmentRecord.at
  split <;> rfl

@[simp] theorem at_ownerSubject : (record.at now).ownerSubject = record.ownerSubject := by
  unfold AttachmentRecord.at
  split <;> rfl

@[simp] theorem at_conversationId : (record.at now).conversationId = record.conversationId := by
  unfold AttachmentRecord.at
  split <;> rfl

@[simp] theorem at_expiresAt : (record.at now).expiresAt = record.expiresAt := by
  unfold AttachmentRecord.at
  split <;> rfl

theorem at_available : (record.at now).status = .available ↔
    record.status = .available ∧ now < record.expiresAt := by
  unfold AttachmentRecord.at
  split_ifs with h
  · exact ⟨fun ha => ⟨ha, h.resolve_left (not_not.2 ha)⟩, And.left⟩
  · simp only [not_or, not_not] at h
    simp [h.2]

theorem expireRecords_records :
    (c.expireRecords now records disk).2.1 = records.map (AttachmentRecord.at now) := by
  induction records generalizing disk with
  | nil => rfl
  | cons r rs ih =>
    unfold Call.expireRecords AttachmentRecord.at
    split_ifs with h
    · simp [ih, h, AttachmentRecord.at]
    · simp [ih, h, AttachmentRecord.at]

@[simp] theorem cleanupExpired_records {t : Option Int} : (c.cleanupExpired t w).2.storage.records =
    w.storage.records.map (AttachmentRecord.at (t.getD c.now)) := expireRecords_records

theorem lookup_cleaned {t : Option Int} :
    lookup AttachmentRecord.id id (c.cleanupExpired t w).2.storage.records =
      (lookup AttachmentRecord.id id w.storage.records).map
        (AttachmentRecord.at (t.getD c.now)) := by
  rw [cleanupExpired_records]
  exact lookup_map fun _ => at_id

/-! ## Who is given an attachment -/

/-- The attachment is on record for another subject, or for another conversation. -/
def Foreign (w : World) (attachment : Attachment) (context : AttachmentAccessContext) : Prop :=
  ∃ id record, attachmentId attachment = some id ∧
    lookup AttachmentRecord.id id w.storage.records = some record ∧
    (context.subject ≠ record.ownerSubject ∨
      record.conversationId ≠ none ∧ context.conversationId ≠ record.conversationId)

/-- No attachment of the name is on record. -/
def Unknown (w : World) (attachment : Attachment) : Prop :=
  ∀ id, attachmentId attachment = some id →
    lookup AttachmentRecord.id id w.storage.records = none

/-- The name finds nothing that the context may have. -/
def Refused (w : World) (attachment : Attachment) (context : AttachmentAccessContext) : Prop :=
  ∀ id, attachmentId attachment = some id → recordForContext w.storage.records id context = none

theorem recordForContext_eq_none : recordForContext records id context = none ↔
    ∀ record, lookup AttachmentRecord.id id records = some record →
      context.subject ≠ record.ownerSubject ∨
        record.conversationId ≠ none ∧ context.conversationId ≠ record.conversationId := by
  unfold recordForContext
  cases hr : lookup AttachmentRecord.id id records with
  | none => simp
  | some record =>
    by_cases hs : context.subject = record.ownerSubject
    · by_cases hc : record.conversationId ≠ none ∧ context.conversationId ≠ record.conversationId
      · simp [hs, hc]
      · simp [hs, hc]
    · simp [hs]

theorem recordForContext_cleaned {t : Option Int} :
    recordForContext (c.cleanupExpired t w).2.storage.records id context = none ↔
      recordForContext w.storage.records id context = none := by
  rw [recordForContext_eq_none, recordForContext_eq_none, lookup_cleaned]
  cases lookup AttachmentRecord.id id w.storage.records with
  | none => simp
  | some record => simp

theorem Foreign.refused (h : Foreign w attachment context) : Refused w attachment context := by
  obtain ⟨id, record, hid, hrecord, hforeign⟩ := h
  intro id' hid'
  obtain rfl := Option.some.inj (hid.symm.trans hid')
  rw [recordForContext_eq_none]
  intro record' hrecord'
  obtain rfl := Option.some.inj (hrecord.symm.trans hrecord')
  exact hforeign

theorem Unknown.refused (h : Unknown w attachment) : Refused w attachment context := by
  intro id hid
  rw [recordForContext_eq_none, h id hid]
  exact fun record hrecord => nomatch hrecord

/-- **A refused call** answers that there is no such attachment, and only cleans up. -/
theorem refused_answers (h : Refused w attachment context) :
    w.read host c attachment context = (missingResult, (c.cleanupExpired none w).2) ∧
    w.consume host c attachment context = (missingResult, (c.cleanupExpired none w).2) ∧
    w.discard c attachment context = (false, (c.cleanupExpired none w).2) := by
  unfold World.read World.consume World.discard
  cases hid : attachmentId attachment with
  | none => exact ⟨rfl, rfl, rfl⟩
  | some id =>
    have hnone := (recordForContext_cleaned (c := c) (t := none)).2 (h id hid)
    dsimp only
    rw [hnone]
    exact ⟨rfl, rfl, rfl⟩

/-- **A foreign attachment is an unknown one.** A call for an attachment of another subject or
conversation only cleans up, and its result and what it leaves are those of a call for an attachment
that does not exist. -/
theorem foreign_is_unknown (h : Foreign w attachment context) :
    (w.read host c attachment context = (missingResult, (c.cleanupExpired none w).2) ∧
      w.consume host c attachment context = (missingResult, (c.cleanupExpired none w).2) ∧
      w.discard c attachment context = (false, (c.cleanupExpired none w).2)) ∧
    ∀ unknown context', Unknown w unknown →
      w.read host c attachment context = w.read host c unknown context' ∧
      w.consume host c attachment context = w.consume host c unknown context' ∧
      w.discard c attachment context = w.discard c unknown context' := by
  have hanswers {a : Attachment} {x : AttachmentAccessContext} (ha : Refused w a x) :
      w.read host c a x = (missingResult, (c.cleanupExpired none w).2) ∧
        w.consume host c a x = (missingResult, (c.cleanupExpired none w).2) ∧
        w.discard c a x = (false, (c.cleanupExpired none w).2) := refused_answers ha
  refine ⟨hanswers h.refused, ?_⟩
  intro unknown context' hunknown
  have hrefused : Refused w unknown context' := hunknown.refused
  obtain ⟨hread, hconsume, hdiscard⟩ := hanswers hrefused
  rw [hread, hconsume, hdiscard]
  exact hanswers h.refused

/-! ## What removals leave -/

/-- `rmtree` leaves nothing. -/
def Call.Removes (c : Call) : Prop := ∀ d, c.leftover d = none

theorem Call.Removes.rmtree (hc : c.Removes) : c.rmtree d = none := by
  unfold Call.rmtree
  rw [hc d]
  rfl

theorem mem_rmtreeAt (hc : c.Removes) (h : d ∈ c.rmtreeAt id disk) : d ∈ disk ∧ d.name ≠ id := by
  obtain ⟨d', hd', hleft⟩ := List.mem_filterMap.1 h
  by_cases hname : d'.name = id
  · rw [if_pos hname, hc.rmtree] at hleft
    cases hleft
  · rw [if_neg hname] at hleft
    obtain rfl := Option.some.inj hleft
    exact ⟨hd', hname⟩

theorem mem_removeAttachmentDir (hc : c.Removes) (hid : resolveAttachmentDir id = some id)
    (h : d ∈ (c.removeAttachmentDir id disk).2) : d ∈ disk ∧ d.name ≠ id := by
  unfold Call.removeAttachmentDir at h
  rw [hid] at h
  exact mem_rmtreeAt hc h

theorem mem_expireRecords (hc : c.Removes)
    (hids : ∀ r ∈ records, resolveAttachmentDir r.id = some r.id)
    (h : d ∈ (c.expireRecords now records disk).2.2) :
    d ∈ disk ∧ ∀ r ∈ records, r.status = .available → r.expiresAt ≤ now → d.name ≠ r.id := by
  induction records generalizing disk with
  | nil => exact ⟨h, fun r hr => nomatch hr⟩
  | cons r rs ih =>
    have hrest := fun r hr => hids r (List.mem_cons_of_mem _ hr)
    unfold Call.expireRecords at h
    split_ifs at h with hkeep
    · obtain ⟨hmem, hnames⟩ := ih hrest h
      refine ⟨hmem, fun r' hr' hs he => ?_⟩
      rcases List.mem_cons.1 hr' with rfl | hr'
      · exact absurd he (Int.not_le.2 (hkeep.resolve_left (not_not.2 hs)))
      · exact hnames r' hr' hs he
    · obtain ⟨hmem, hnames⟩ := ih hrest h
      obtain ⟨hmem, hname⟩ := mem_removeAttachmentDir hc (hids r List.mem_cons_self) hmem
      refine ⟨hmem, fun r' hr' hs he => ?_⟩
      rcases List.mem_cons.1 hr' with rfl | hr'
      · exact hname
      · exact hnames r' hr' hs he

theorem mem_sweep {ids : List String} (hc : c.Removes) (h : d ∈ (c.sweep ids disk).2) :
    d ∈ disk ∧ d.name ∈ ids := by
  obtain ⟨d', hd', hleft⟩ := List.mem_filterMap.1 h
  by_cases hname : d'.name ∈ ids
  · rw [if_pos hname] at hleft
    obtain rfl := Option.some.inj hleft
    exact ⟨hd', hname⟩
  · rw [if_neg hname, hc.rmtree] at hleft
    cases hleft

/-! ## Sound storages -/

/-- A record that is there stands no better than before. -/
def Declines (id : String) (records records' : List AttachmentRecord) : Prop :=
  ∀ r', lookup AttachmentRecord.id id records' = some r' →
    ∃ r, lookup AttachmentRecord.id id records = some r ∧ r'.reference = r.reference ∧
      r'.expiresAt = r.expiresAt ∧ (r'.status = .available → r.status = .available)

theorem Declines.refl : Declines id records records := fun r hr => ⟨r, hr, rfl, rfl, fun h => h⟩

theorem Declines.trans {records₁ records₂ : List AttachmentRecord} (h₁ : Declines id records records₁)
    (h₂ : Declines id records₁ records₂) : Declines id records records₂ := by
  intro r₂ hr₂
  obtain ⟨r₁, hr₁, href₁, hexp₁, hst₁⟩ := h₂ r₂ hr₂
  obtain ⟨r, hr, href, hexp, hst⟩ := h₁ r₁ hr₁
  exact ⟨r, hr, href₁.trans href, hexp₁.trans hexp, fun h => hst (hst₁ h)⟩

theorem Declines.map {f : AttachmentRecord → AttachmentRecord}
    (hf : ∀ r, (f r).reference = r.reference ∧ (f r).expiresAt = r.expiresAt ∧
      ((f r).status = .available → r.status = .available)) :
    Declines id records (records.map f) := by
  intro r' hr'
  have hid (r) : (f r).id = r.id := congrArg AttachmentRef.attachmentId (hf r).1
  rw [lookup_map hid] at hr'
  obtain ⟨r, hr, rfl⟩ := Option.map_eq_some_iff.1 hr'
  exact ⟨r, hr, (hf r).1, (hf r).2.1, (hf r).2.2⟩

/-- Every record has an id that was given out, and every manifest on disk is that of a record which
is still available. -/
structure Sound (issued : List String) (w : World) : Prop where
  issued : ∀ r ∈ w.storage.records, r.id ∈ issued
  ids : ∀ r ∈ w.storage.records, resolveAttachmentDir r.id = some r.id
  manifests : ∀ d ∈ w.disk, ∀ m, d.manifest = some m →
    ∃ r, lookup AttachmentRecord.id d.name w.storage.records = some r ∧ r.status = .available ∧
      m.reference = r.reference ∧ m.expiresAt = r.expiresAt

theorem declines_cleaned {t : Option Int} :
    Declines id w.storage.records (c.cleanupExpired t w).2.storage.records := by
  rw [cleanupExpired_records]
  exact Declines.map fun r => ⟨at_reference, at_expiresAt, fun h => (at_available.1 h).1⟩

theorem Sound.cleaned {issued : List String} {t : Option Int} (hc : c.Removes)
    (h : Sound issued w) : Sound issued (c.cleanupExpired t w).2 := by
  refine ⟨?_, ?_, ?_⟩
  · intro r' hr'
    rw [cleanupExpired_records] at hr'
    obtain ⟨r, hr, rfl⟩ := List.mem_map.1 hr'
    rw [at_id]
    exact h.issued r hr
  · intro r' hr'
    rw [cleanupExpired_records] at hr'
    obtain ⟨r, hr, rfl⟩ := List.mem_map.1 hr'
    rw [at_id]
    exact h.ids r hr
  · intro d hd m hm
    obtain ⟨hd, -⟩ := mem_sweep hc hd
    obtain ⟨hd, hnames⟩ := mem_expireRecords hc h.ids hd
    obtain ⟨r, hr, havailable, href, hexp⟩ := h.manifests d hd m hm
    have hnow : t.getD c.now < r.expiresAt := by
      by_contra hover
      exact hnames r (mem_of_lookup hr) havailable (Int.not_lt.1 hover) (key_of_lookup hr).symm
    refine ⟨r, ?_, havailable, href, hexp⟩
    rw [lookup_cleaned, hr]
    exact congrArg some (if_pos (Or.inr hnow))

theorem removeDir_disk : (w.removeDir c id).disk = (c.removeAttachmentDir id w.disk).2 := rfl

@[simp] theorem removeDir_records : (w.removeDir c id).storage.records = w.storage.records := rfl

theorem setStatus_id {status : AttachmentStatus} {r : AttachmentRecord} :
    (if r.id = id then { r with status } else r : AttachmentRecord).id = r.id := by
  split_ifs <;> rfl

theorem declines_setStatus {status : AttachmentStatus} {j : String} (hs : status ≠ .available) :
    Declines j w.storage.records (w.setStatus id status).storage.records := by
  refine Declines.map fun r => ?_
  split_ifs
  · exact ⟨rfl, rfl, fun h => absurd h hs⟩
  · exact ⟨rfl, rfl, fun h => h⟩

theorem lookup_setStatus {status : AttachmentStatus} {j : String} (hj : j ≠ id) :
    lookup AttachmentRecord.id j (w.setStatus id status).storage.records =
      lookup AttachmentRecord.id j w.storage.records := by
  unfold World.setStatus
  dsimp only
  rw [lookup_map fun r => setStatus_id]
  cases hr : lookup AttachmentRecord.id j w.storage.records with
  | none => rfl
  | some r =>
    have hid : r.id ≠ id := fun he => hj ((key_of_lookup hr).symm.trans he)
    exact congrArg some (if_neg hid)

/-- An attachment leaves the disk, and its record changes. -/
theorem Sound.removed {issued : List String} (hc : c.Removes) (h : Sound issued w)
    (hid : resolveAttachmentDir id = some id)
    (hrecords : ∀ r' ∈ w'.storage.records, ∃ r ∈ w.storage.records, r'.id = r.id)
    (hlookup : ∀ j, j ≠ id → lookup AttachmentRecord.id j w'.storage.records =
      lookup AttachmentRecord.id j w.storage.records)
    (hdisk : w'.disk = (w.removeDir c id).disk) : Sound issued w' := by
  refine ⟨?_, ?_, ?_⟩
  · intro r' hr'
    obtain ⟨r, hr, he⟩ := hrecords r' hr'
    rw [he]
    exact h.issued r hr
  · intro r' hr'
    obtain ⟨r, hr, he⟩ := hrecords r' hr'
    rw [he]
    exact h.ids r hr
  · intro d hd m hm
    rw [hdisk, removeDir_disk] at hd
    obtain ⟨hd, hne⟩ := mem_removeAttachmentDir hc hid hd
    rw [hlookup d.name hne]
    exact h.manifests d hd m hm

theorem Sound.setStatus {issued : List String} {status : AttachmentStatus} (hc : c.Removes)
    (h : Sound issued w) (hid : resolveAttachmentDir id = some id) :
    Sound issued ((w.setStatus id status).removeDir c id) := by
  have hrecords : ∀ r' ∈ ((w.setStatus id status).removeDir c id).storage.records,
      ∃ r ∈ w.storage.records, r'.id = r.id := by
    intro r' hr'
    obtain ⟨r, hr, rfl⟩ := List.mem_map.1 hr'
    exact ⟨r, hr, setStatus_id⟩
  exact h.removed hc hid hrecords (fun j hj => lookup_setStatus hj) rfl

theorem lookup_forget {j : String} : lookup AttachmentRecord.id j (w.forget id).storage.records =
    if j = id then none else lookup AttachmentRecord.id j w.storage.records := by
  unfold World.forget lookup
  dsimp only
  rw [List.find?_filter]
  split_ifs with hj
  · apply List.find?_eq_none.2
    intro r _
    simp [hj]
  · congr 1
    funext r
    by_cases hr : r.id = j
    · simp [hr, hj]
    · simp [hr]

theorem Sound.forget {issued : List String} (hc : c.Removes) (h : Sound issued w)
    (hid : resolveAttachmentDir id = some id) :
    Sound issued ((w.removeDir c id).forget id) := by
  have hrecords : ∀ r' ∈ ((w.removeDir c id).forget id).storage.records,
      ∃ r ∈ w.storage.records, r'.id = r.id :=
    fun r' hr' => ⟨r', List.mem_of_mem_filter hr', rfl⟩
  have hlookup : ∀ j, j ≠ id →
      lookup AttachmentRecord.id j ((w.removeDir c id).forget id).storage.records =
        lookup AttachmentRecord.id j w.storage.records := by
    intro j hj
    rw [lookup_forget, if_neg hj, removeDir_records]
  exact h.removed hc hid hrecords hlookup rfl

theorem declines_forget {j : String} :
    Declines j w.storage.records ((w.removeDir c id).forget id).storage.records := by
  intro r' hr'
  rw [lookup_forget] at hr'
  split_ifs at hr'
  exact ⟨r', hr', rfl, rfl, fun h => h⟩

/-! ## What the methods come to -/

theorem lookup_of_recordForContext (h : recordForContext records id context = some record) :
    lookup AttachmentRecord.id id records = some record := by
  unfold recordForContext at h
  split at h
  · cases h
  · next r hr =>
    split_ifs at h
    rw [hr, Option.some.inj h]

/-- What a `read` or a `consume` comes to on a storage that was cleaned up; `take` is what becomes of
the attachment whose content is given. -/
inductive Fetched (host : Host) (c : Call) (w : World) (attachment : Attachment)
    (take : String → World) : AttachmentReadResult → World → Prop
  | refused : Fetched host c w attachment take missingResult w
  | late {id : String} {record : AttachmentRecord} (hid : attachmentId attachment = some id)
      (hfound : lookup AttachmentRecord.id id w.storage.records = some record)
      (hover : record.status ≠ .available) :
      Fetched host c w attachment take (terminalResult record) w
  | broken {id : String} {record : AttachmentRecord} (hid : attachmentId attachment = some id)
      (hfound : lookup AttachmentRecord.id id w.storage.records = some record)
      (havailable : record.status = .available) :
      Fetched host c w attachment take (terminalResult { record with status := .missing })
        ((w.setStatus id .missing).removeDir c id)
  | whole {id : String} {record : AttachmentRecord} {content : Bytes}
      (hid : attachmentId attachment = some id)
      (hfound : lookup AttachmentRecord.id id w.storage.records = some record)
      (havailable : record.status = .available)
      (hcontent : readVerifiedContent host w.disk record = some content) :
      Fetched host c w attachment take (availableResult record content) (take id)

theorem fetched_read : Fetched host c (c.cleanupExpired none w).2 attachment
    (fun _ => (c.cleanupExpired none w).2) (w.read host c attachment context).1
    (w.read host c attachment context).2 := by
  unfold World.read
  dsimp only
  split
  · exact .refused
  · next id hid =>
    split
    · exact .refused
    · next record hrecord =>
      have hfound := lookup_of_recordForContext hrecord
      split_ifs with hover
      · exact .late hid hfound hover
      · split
        · exact .broken hid hfound (not_not.1 hover)
        · next content hcontent => exact .whole hid hfound (not_not.1 hover) hcontent

theorem fetched_consume : Fetched host c (c.cleanupExpired none w).2 attachment
    (fun id => ((c.cleanupExpired none w).2.setStatus id .consumed).removeDir c id)
    (w.consume host c attachment context).1 (w.consume host c attachment context).2 := by
  unfold World.consume
  dsimp only
  split
  · exact .refused
  · next id hid =>
    split
    · exact .refused
    · next record hrecord =>
      have hfound := lookup_of_recordForContext hrecord
      split_ifs with hover
      · exact .late hid hfound hover
      · split
        · exact .broken hid hfound (not_not.1 hover)
        · next content hcontent => exact .whole hid hfound (not_not.1 hover) hcontent

/-- What a `discard` comes to on a storage that was cleaned up. -/
theorem discard_cases (w : World) (c : Call) (attachment : Attachment)
    (context : AttachmentAccessContext) : w.discard c attachment context = (false, (c.cleanupExpired none w).2) ∨
    ∃ id record, attachmentId attachment = some id ∧
      lookup AttachmentRecord.id id (c.cleanupExpired none w).2.storage.records = some record ∧
      w.discard c attachment context =
        (true, ((c.cleanupExpired none w).2.removeDir c id).forget id) := by
  unfold World.discard
  dsimp only
  split
  · exact Or.inl rfl
  · next id hid =>
    split
    · exact Or.inl rfl
    · next record hrecord =>
      exact Or.inr ⟨id, record, hid, lookup_of_recordForContext hrecord, rfl⟩

/-- What a `stage_attachment` comes to on a storage that was cleaned up. -/
inductive Stages (s : Staging) (w : World) : Except StoreException AttachmentRef → World → Prop
  | refused {e : StoreException} {disk : List Directory}
      (hdisk : ∀ d ∈ disk, d ∈ w.disk ∨ d.manifest = none) :
      Stages s w (.error e) { w with disk := disk }
  | staged {record : AttachmentRecord} {d : Directory} (hid : record.id = s.uuid4)
      (havailable : record.status = .available)
      (hname : d.name = s.uuid4) (hmanifest : d.manifest = some record.manifest)
      (hexpires : s.now + s.elapsed < record.expiresAt) :
      Stages s w (.ok record.reference) { w with
        storage := { w.storage with records := w.storage.records ++ [record] }
        disk := w.disk ++ [d] }

theorem mem_rmtreeAt_append {name : String} {d' : Directory} (hc : c.Removes)
    (h : d' ∈ c.rmtreeAt name (disk ++ [d])) (hd : d.name = name) : d' ∈ disk := by
  obtain ⟨hmem, hne⟩ := mem_rmtreeAt hc h
  rcases List.mem_append.1 hmem with hmem | hmem
  · exact hmem
  · exact absurd (List.mem_singleton.1 hmem ▸ hd) hne

theorem stages_stageAttachment {s : Staging} {fileName mediaType : Option String}
    (hc : s.toCall.Removes) :
    Stages s (s.toCall.cleanupExpired none w).2
      (w.stageAttachment host s fileName mediaType content context).1
      (w.stageAttachment host s fileName mediaType content context).2 := by
  unfold World.stageAttachment
  dsimp only
  split
  · exact .refused fun d hd => Or.inl hd
  split
  · exact .refused fun d hd => Or.inl hd
  split
  · exact .refused fun d hd => Or.inl hd
  split
  · exact .refused fun d hd => Or.inl (mem_rmtreeAt_append hc hd rfl)
  split
  · refine .refused fun d hd => ?_
    rcases List.mem_append.1 hd with hd | hd
    · exact Or.inl hd
    · exact Or.inr (List.mem_singleton.1 hd ▸ rfl)
  next reference hchecked =>
  split
  · exact .refused fun d hd => Or.inl (mem_rmtreeAt_append hc hd rfl)
  have hreference : reference.attachmentId = s.uuid4 := by
    simp only [AttachmentRef.checked, except_bind_ok, exists_unit, require_ok] at hchecked
    rw [← Except.ok.inj hchecked.2.2.2.2]
  have hpos := (s.toCall.cleanupExpired none w).2.storage.settings.retention_pos
  refine @Stages.staged _ _ (stagedRecord _ s reference context) _ hreference rfl rfl rfl ?_
  show s.now + (s.elapsed : Int) < s.now + s.elapsed + (_ : Nat) * 1000000
  omega

/-! ## Restored records -/

theorem readManifest_spec {settings : Settings} (h : readManifest settings d = some record) :
    ∃ m, d.manifest = some m ∧ record.reference = m.reference ∧ record.id = d.name ∧
      record.expiresAt = m.expiresAt := by
  unfold readManifest at h
  split at h
  · cases h
  next m hm =>
  split_ifs at h
  split at h
  · cases h
  next reference hchecked =>
  split_ifs at h with hvalid
  split at h
  · cases h
  cases h
  have hreference : reference = m.reference := by
    simp only [AttachmentRef.checked, except_bind_ok, exists_unit, require_ok] at hchecked
    exact (Except.ok.inj hchecked.2.2.2.2).symm
  exact ⟨m, hm, hreference, not_not.1 fun hne => hvalid (Or.inl hne), rfl⟩

theorem restoredRecord_spec {settings : Settings}
    (h : restoredRecord host settings now disk d = some record) :
    readManifest settings d = some record ∧ record.status = .available ∧ now < record.expiresAt := by
  unfold restoredRecord at h
  split at h
  · cases h
  next r hr =>
  split_ifs at h with hbad
  obtain rfl := Option.some.inj h
  simp only [not_or, not_not, Int.not_le] at hbad
  exact ⟨hr, hbad.1, hbad.2.1⟩

/-- A restored record is that of an attachment which was available before. -/
theorem Sound.restored {issued : List String} {settings : Settings} (h : Sound issued w)
    (hd : d ∈ w.disk) (hr : restoredRecord host settings now w.disk d = some record) :
    record.id = d.name ∧ ∃ r, lookup AttachmentRecord.id d.name w.storage.records = some r ∧
      record.reference = r.reference ∧ record.expiresAt = r.expiresAt ∧ r.status = .available := by
  obtain ⟨m, hm, href, hid, hexp⟩ := readManifest_spec (restoredRecord_spec hr).1
  obtain ⟨r, hr, havailable, href', hexp'⟩ := h.manifests d hd m hm
  exact ⟨hid, r, hr, href.trans href', hexp.trans hexp', havailable⟩

theorem declines_restored {issued : List String} {settings : Settings} (h : Sound issued w) :
    Declines id w.storage.records (restoreRecords host settings c w.disk).storage.records := by
  intro r' hr'
  obtain ⟨d, hd, hrestored⟩ := List.mem_filterMap.1 (mem_of_lookup hr')
  obtain ⟨hid, r, hr, href, hexp, havailable⟩ := h.restored hd hrestored
  have hname : d.name = id := hid.symm.trans (key_of_lookup hr')
  exact ⟨r, hname ▸ hr, href, hexp, fun _ => havailable⟩

theorem Sound.restoreRecords {issued : List String} {settings : Settings} (hc : c.Removes)
    (h : Sound issued w) : Sound issued (restoreRecords host settings c w.disk) := by
  have hrecords : ∀ r' ∈ (Filesystem.restoreRecords host settings c w.disk).storage.records,
      ∃ r ∈ w.storage.records, r'.id = r.id := by
    intro r' hr'
    obtain ⟨d, hd, hrestored⟩ := List.mem_filterMap.1 hr'
    obtain ⟨hid, r, hr, -⟩ := h.restored hd hrestored
    exact ⟨r, mem_of_lookup hr, hid.trans (key_of_lookup hr).symm⟩
  refine ⟨?_, ?_, ?_⟩
  · intro r' hr'
    obtain ⟨r, hr, he⟩ := hrecords r' hr'
    rw [he]
    exact h.issued r hr
  · intro r' hr'
    obtain ⟨r, hr, he⟩ := hrecords r' hr'
    rw [he]
    exact h.ids r hr
  · intro d hd m hm
    obtain ⟨d', hd', hkept⟩ := List.mem_filterMap.1 hd
    by_cases hsome : (restoredRecord host settings c.now w.disk d').isSome
    · rw [if_pos hsome] at hkept
      obtain rfl := Option.some.inj hkept
      obtain ⟨record, hrecord⟩ := Option.isSome_iff_exists.1 hsome
      have hmem : d'.name ∈
          (Filesystem.restoreRecords host settings c w.disk).storage.records.map
            AttachmentRecord.id := by
        rw [← (h.restored hd' hrecord).1]
        exact List.mem_map_of_mem (List.mem_filterMap.2 ⟨d', hd', hrecord⟩)
      obtain ⟨r', hr'⟩ := Option.isSome_iff_exists.1 (lookup_isSome_iff.2 hmem)
      obtain ⟨d₁, hd₁, hrestored⟩ := List.mem_filterMap.1 (mem_of_lookup hr')
      obtain ⟨hid, r, hr, href, hexp, -⟩ := h.restored hd₁ hrestored
      obtain ⟨r₀, hr₀, -, href₀, hexp₀⟩ := h.manifests d' hd' m hm
      -- both directories are named after the one record
      have hname : d₁.name = d'.name := hid.symm.trans (key_of_lookup hr')
      rw [hname, hr₀] at hr
      obtain rfl := Option.some.inj hr
      exact ⟨r', hr', (restoredRecord_spec hrestored).2.1, href₀.trans href.symm,
        hexp₀.trans hexp.symm⟩
    · rw [if_neg hsome, hc.rmtree] at hkept
      cases hkept

/-! ## Runs -/

/-- What happens to a root: the calls of its instance, a new instance in place of the old one, and
what others do to the directories. -/
inductive Action
  | stage (s : Staging) (fileName mediaType : Option String) (content : Bytes)
      (context : AttachmentAccessContext)
  | read (c : Call) (attachment : Attachment) (context : AttachmentAccessContext)
  | consume (c : Call) (attachment : Attachment) (context : AttachmentAccessContext)
  | discard (c : Call) (attachment : Attachment) (context : AttachmentAccessContext)
  | cleanup (c : Call) (now : Option Int)
  | restart (c : Call) (settings : Settings)
  | disturb (disk : List Directory)

inductive Response
  | staged (result : Except StoreException AttachmentRef)
  | fetched (result : AttachmentReadResult)
  | discarded (found : Bool)
  | cleaned (removed : Nat)
  | silent

namespace Action

def call? : Action → Option Call
  | .stage s .. => some s.toCall
  | .read c .. | .consume c .. | .discard c .. | .cleanup c _ | .restart c _ => some c
  | .disturb _ => none

/-- When the action ends that begins at `now`. -/
def finish (now : Int) : Action → Int
  | .stage s .. => now + s.elapsed
  | _ => now

/-- The ids the action gives out. -/
def issues : Action → List String
  | .stage s .. => [s.uuid4]
  | _ => []

def response (host : Host) (w : World) : Action → Response
  | .stage s fileName mediaType content context =>
    .staged (w.stageAttachment host s fileName mediaType content context).1
  | .read c attachment context => .fetched (w.read host c attachment context).1
  | .consume c attachment context => .fetched (w.consume host c attachment context).1
  | .discard c attachment context => .discarded (w.discard c attachment context).1
  | .cleanup c now => .cleaned (c.cleanupExpired now w).1
  | .restart .. | .disturb _ => .silent

/-- The world the action leaves. -/
def leaves (host : Host) (w : World) : Action → World
  | .stage s fileName mediaType content context =>
    (w.stageAttachment host s fileName mediaType content context).2
  | .read c attachment context => (w.read host c attachment context).2
  | .consume c attachment context => (w.consume host c attachment context).2
  | .discard c attachment context => (w.discard c attachment context).2
  | .cleanup c now => (c.cleanupExpired now w).2
  | .restart c settings => restoreRecords host settings c w.disk
  | .disturb disk => { w with disk }

end Action

/-- A root with its instance, the time, and the ids that were given out. -/
structure System where
  world : World
  now : Int
  issued : List String := []

abbrev Event := Action × Response

/-- Manifests are not forged. -/
def ManifestsIntact (before after : List Directory) : Prop :=
  ∀ d' ∈ after, ∀ m, d'.manifest = some m → ∃ d ∈ before, d.name = d'.name ∧ d.manifest = some m

/-- Something happens. The clock does not go back, a removal succeeds, an id is new, and manifests
are intact. -/
structure Turn (host : Host) (s : System) (e : Event) (s' : System) : Prop where
  response : e.2 = e.1.response host s.world
  world : s'.world = e.1.leaves host s.world
  clock : s.now ≤ s'.now ∧ ∀ c, e.1.call? = some c → s.now ≤ c.now ∧ e.1.finish c.now ≤ s'.now
  removes : ∀ c, e.1.call? = some c → c.Removes
  generated : ∀ id ∈ e.1.issues, isHexId false id = true ∧ id ∉ s.issued
  issued : s'.issued = e.1.issues ++ s.issued
  intact : ∀ disk, e.1 = .disturb disk → ManifestsIntact s.world.disk disk

theorem Sound.mono {issued issued' : List String} (h : Sound issued w) (hsub : issued ⊆ issued') :
    Sound issued' w := ⟨fun r hr => hsub (h.issued r hr), h.ids, h.manifests⟩

theorem Sound.fetched {issued : List String} {take : String → World} {result : AttachmentReadResult}
    (hc : c.Removes) (h : Sound issued w) (hf : Fetched host c w attachment take result w')
    (htake : ∀ id, resolveAttachmentDir id = some id → Sound issued (take id)) :
    Sound issued w' := by
  have hresolve {id : String} {record : AttachmentRecord}
      (hr : lookup AttachmentRecord.id id w.storage.records = some record) :
      resolveAttachmentDir id = some id := by
    rw [← key_of_lookup hr]
    exact h.ids record (mem_of_lookup hr)
  cases hf with
  | refused | late => exact h
  | broken hid hfound => exact h.setStatus hc (hresolve hfound)
  | whole hid hfound => exact htake _ (hresolve hfound)

theorem declines_fetched {take : String → World} {result : AttachmentReadResult}
    (hf : Fetched host c w attachment take result w')
    (htake : ∀ j, Declines id w.storage.records (take j).storage.records) :
    Declines id w.storage.records w'.storage.records := by
  cases hf with
  | refused | late => exact .refl
  | broken => exact declines_setStatus (by decide)
  | whole => exact htake _

theorem resolve_of_generated (h : isHexId false id = true) : resolveAttachmentDir id = some id := by
  unfold isHexId at h
  simp only [Bool.false_and, Bool.or_false, Bool.and_eq_true, List.all_eq_true] at h
  have hspace : ∀ x ∈ id.toList, isSpace x = false := by
    intro x hx
    apply not_isSpace_of_isAlnum
    have hdigit := h.2 x hx
    simp only [Bool.or_eq_true, Bool.and_eq_true, decide_eq_true_eq] at hdigit
    simp only [isAlnum, isLower, isUpper, Bool.or_eq_true, Bool.and_eq_true, decide_eq_true_eq]
    rcases hdigit with hdigit | ⟨hlow, hhigh⟩
    · exact Or.inr hdigit
    · exact Or.inl (Or.inl ⟨hlow, by omega⟩)
  have hhex : isHexId true id = true := by
    unfold isHexId
    simp only [Bool.and_eq_true, List.all_eq_true]
    refine ⟨h.1, fun x hx => ?_⟩
    rw [h.2 x hx, Bool.true_or]
  unfold resolveAttachmentDir
  rw [strip_eq_self hspace, if_pos hhex]

theorem Sound.lookup_new {issued : List String} (h : Sound issued w) (hnew : id ∉ issued) :
    lookup AttachmentRecord.id id w.storage.records = none := by
  rw [lookup_eq_none_iff]
  intro hmem
  obtain ⟨r, hr, he⟩ := List.mem_map.1 hmem
  exact hnew (he ▸ h.issued r hr)

theorem Stages.declines {s : Staging} {result : Except StoreException AttachmentRef}
    (hs : Stages s w result w')
    (hnone : lookup AttachmentRecord.id s.uuid4 w.storage.records = none) :
    Declines id w.storage.records w'.storage.records ∨ id = s.uuid4 ∧
      ∀ r, lookup AttachmentRecord.id id w'.storage.records = some r → result = .ok r.reference := by
  cases hs with
  | refused => exact Or.inl .refl
  | @staged record d hrecord =>
    by_cases hid : id = s.uuid4
    · subst hid
      refine Or.inr ⟨rfl, fun r hr => ?_⟩
      rw [lookup_append, hnone] at hr
      have hmem := mem_of_lookup hr
      rw [List.mem_singleton.1 hmem]
    · refine Or.inl fun r' hr' => ?_
      have hother : lookup AttachmentRecord.id id [record] = none := by
        simpa [lookup, hrecord] using Ne.symm hid
      rw [lookup_append, hother, Option.or_none] at hr'
      exact ⟨r', hr', rfl, rfl, fun h => h⟩

theorem Sound.staged {issued : List String} {s : Staging} {result : Except StoreException AttachmentRef}
    (h : Sound issued w) (hs : Stages s w result w') (hid : isHexId false s.uuid4 = true)
    (hnew : s.uuid4 ∉ issued) : Sound (s.uuid4 :: issued) w' := by
  cases hs with
  | refused hdisk =>
    refine ⟨fun r hr => List.mem_cons_of_mem _ (h.issued r hr), h.ids, fun d hd m hm => ?_⟩
    rcases hdisk d hd with hd | hnone
    · exact h.manifests d hd m hm
    · rw [hnone] at hm
      cases hm
  | @staged record d hrecord havailable hname hmanifest =>
    have hnone := h.lookup_new hnew
    refine ⟨fun r hr => ?_, fun r hr => ?_, fun d' hd' m hm => ?_⟩
    · rcases List.mem_append.1 hr with hr | hr
      · exact List.mem_cons_of_mem _ (h.issued r hr)
      · rw [List.mem_singleton.1 hr, hrecord]
        exact List.mem_cons_self
    · rcases List.mem_append.1 hr with hr | hr
      · exact h.ids r hr
      · rw [List.mem_singleton.1 hr, hrecord]
        exact resolve_of_generated hid
    · rcases List.mem_append.1 hd' with hd' | hd'
      · obtain ⟨r, hr, hfacts⟩ := h.manifests d' hd' m hm
        refine ⟨r, ?_, hfacts⟩
        rw [lookup_append, hr]
        rfl
      · obtain rfl := List.mem_singleton.1 hd'
        obtain rfl := Option.some.inj (hmanifest.symm.trans hm)
        refine ⟨record, ?_, havailable, rfl, rfl⟩
        rw [lookup_append, hname, hnone]
        simp [lookup, hrecord]

/-- **What a turn does.** The storage stays sound, and a record gets no better, unless it is that of
the attachment the turn stages. -/
theorem Turn.sound {s s' : System} {e : Event} (h : Sound s.issued s.world) (ht : Turn host s e s') :
    Sound s'.issued s'.world ∧ ∀ id,
      Declines id s.world.storage.records s'.world.storage.records ∨
      id ∈ e.1.issues ∧ ∀ r, lookup AttachmentRecord.id id s'.world.storage.records = some r →
        e.2 = .staged (.ok r.reference) := by
  obtain ⟨hresponse, hworld, -, hremoves, hgenerated, hissued, hintact⟩ := ht
  obtain ⟨a, response⟩ := e
  rw [hissued, hworld]
  cases a with
  | stage st fileName mediaType content context =>
    have hc := hremoves _ rfl
    obtain ⟨hhex, hnew⟩ := hgenerated st.uuid4 List.mem_cons_self
    have hclean := h.cleaned (t := none) hc
    have hstages : Stages st (st.toCall.cleanupExpired none s.world).2
        (s.world.stageAttachment host st fileName mediaType content context).1
        (s.world.stageAttachment host st fileName mediaType content context).2 :=
      stages_stageAttachment hc
    refine ⟨hclean.staged hstages hhex hnew, fun id => ?_⟩
    rcases hstages.declines (hclean.lookup_new hnew) with hkept | ⟨hid, hstaged⟩
    · exact Or.inl (declines_cleaned.trans hkept)
    · exact Or.inr ⟨hid ▸ List.mem_cons_self, fun r hr =>
        hresponse.trans (congrArg Response.staged (hstaged r hr))⟩
  | read c attachment context =>
    have hc := hremoves _ rfl
    have hf : Fetched host c _ attachment _ _ (s.world.read host c attachment context).2 :=
      fetched_read
    exact ⟨(h.cleaned hc).fetched hc hf fun _ _ => h.cleaned hc,
      fun id => Or.inl (declines_cleaned.trans (declines_fetched hf fun _ => .refl))⟩
  | consume c attachment context =>
    have hc := hremoves _ rfl
    have hf : Fetched host c _ attachment _ _ (s.world.consume host c attachment context).2 :=
      fetched_consume
    exact ⟨(h.cleaned hc).fetched hc hf fun _ hid => (h.cleaned hc).setStatus hc hid,
      fun id => Or.inl (declines_cleaned.trans (declines_fetched hf fun _ =>
        declines_setStatus (by decide)))⟩
  | discard c attachment context =>
    have hc := hremoves _ rfl
    change Sound _ (s.world.discard c attachment context).2 ∧ ∀ id, Declines id _
      (s.world.discard c attachment context).2.storage.records ∨ _
    rcases discard_cases s.world c attachment context with hd | ⟨id, record, hid, hfound, hd⟩
    · rw [hd]
      exact ⟨h.cleaned hc, fun id => Or.inl declines_cleaned⟩
    · rw [hd]
      have hresolve : resolveAttachmentDir id = some id := by
        rw [← key_of_lookup hfound]
        exact (h.cleaned hc).ids record (mem_of_lookup hfound)
      exact ⟨(h.cleaned hc).forget hc hresolve,
        fun j => Or.inl (declines_cleaned.trans declines_forget)⟩
  | cleanup c now => exact ⟨h.cleaned (hremoves _ rfl), fun id => Or.inl declines_cleaned⟩
  | restart c settings =>
    exact ⟨h.restoreRecords (hremoves _ rfl), fun id => Or.inl (declines_restored h)⟩
  | disturb disk =>
    refine ⟨⟨h.issued, h.ids, fun d hd m hm => ?_⟩, fun id => Or.inl .refl⟩
    obtain ⟨d₀, hd₀, hname, hm₀⟩ := hintact disk rfl d hd m hm
    rw [← hname]
    exact h.manifests d₀ hd₀ m hm₀

/-! ## What a run gives -/

/-- The call gives the content of the attachment. -/
def gives (id : String) : Event → Bool
  | (.read _ attachment _, .fetched result) | (.consume _ attachment _, .fetched result) =>
    attachmentId attachment = some id && result.content.isSome
  | _ => false

/-- A `consume` gives the content of the attachment. -/
def consumes (id : String) : Event → Bool
  | (.consume _ attachment _, .fetched result) =>
    attachmentId attachment = some id && result.content.isSome
  | _ => false

/-- The call finds the attachment consumed, expired or missing, or makes it so, or discards it. -/
def concludes (id : String) : Event → Bool
  | (.read _ attachment _, .fetched result) =>
    attachmentId attachment = some id && result.attachment.isSome && result.status ≠ .available
  | (.consume _ attachment _, .fetched result) =>
    attachmentId attachment = some id && result.attachment.isSome
  | (.discard _ attachment _, .discarded found) => attachmentId attachment = some id && found
  | _ => false

/-- The attachment was discarded or dropped, is consumed, expired or missing, or its time is over. -/
def Over (s : System) (id : String) : Prop :=
  id ∈ s.issued ∧ ∀ r, lookup AttachmentRecord.id id s.world.storage.records = some r →
    r.status = .available → r.expiresAt ≤ s.now

section

variable {s s' : System} {e : Event} {tr : List Event} {take : String → World}
  {result : AttachmentReadResult}

/-- What is given is the content of a record that is available, whole and not yet over. -/
theorem Fetched.given (hf : Fetched host c (c.cleanupExpired none w).2 attachment take result w')
    (hid : attachmentId attachment = some id) (hsome : result.content.isSome = true) :
    ∃ record content, lookup AttachmentRecord.id id w.storage.records = some record ∧
      record.status = .available ∧ c.now < record.expiresAt ∧
      result = availableResult record content ∧ w' = take id ∧
      content.length = record.reference.sizeBytes ∧
      host.sha256 content = record.reference.sha256 := by
  cases hf with
  | refused | late | broken => cases hsome
  | @whole id' record content hid' hfound havailable hcontent =>
    obtain rfl := Option.some.inj (hid'.symm.trans hid)
    rw [lookup_cleaned] at hfound
    obtain ⟨r, hr, rfl⟩ := Option.map_eq_some_iff.1 hfound
    obtain ⟨hstatus, hnow⟩ := at_available.1 havailable
    have hsame : r.at c.now = r := if_pos (Or.inr hnow)
    change readVerifiedContent host _ (r.at c.now) = _ at hcontent
    rw [hsame] at hcontent
    refine ⟨r, content, hr, hstatus, hnow, congrArg (availableResult · content) hsame, rfl, ?_⟩
    unfold readVerifiedContent at hcontent
    split at hcontent
    · cases hcontent
    split at hcontent
    · cases hcontent
    split at hcontent
    · split_ifs at hcontent with hbad
      obtain rfl := Option.some.inj hcontent
      exact ⟨not_not.1 fun h => hbad (Or.inl h), not_not.1 fun h => hbad (Or.inr h)⟩
    · cases hcontent

/-- What a call gives. -/
theorem Turn.given (ht : Turn host s e s') (hg : gives id e = true) :
    ∃ c record content, e.1.call? = some c ∧
      lookup AttachmentRecord.id id s.world.storage.records = some record ∧
      record.status = .available ∧ c.now < record.expiresAt ∧
      e.2 = .fetched (availableResult record content) ∧
      content.length = record.reference.sizeBytes ∧
      host.sha256 content = record.reference.sha256 := by
  obtain ⟨a, response⟩ := e
  have hresponse := ht.response
  cases a with
  | read c attachment context =>
    change response = .fetched _ at hresponse
    subst hresponse
    obtain ⟨hid, hsome⟩ := Bool.and_eq_true_iff.1 hg
    obtain ⟨record, content, hr, hs, hnow, hres, -, hsize⟩ :=
      (fetched_read : Fetched host c _ _ _ _ (s.world.read host c attachment context).2).given
        (of_decide_eq_true hid) hsome
    exact ⟨c, record, content, rfl, hr, hs, hnow, congrArg Response.fetched hres, hsize⟩
  | consume c attachment context =>
    change response = .fetched _ at hresponse
    subst hresponse
    obtain ⟨hid, hsome⟩ := Bool.and_eq_true_iff.1 hg
    obtain ⟨record, content, hr, hs, hnow, hres, -, hsize⟩ :=
      (fetched_consume : Fetched host c _ _ _ _ (s.world.consume host c attachment context).2).given
        (of_decide_eq_true hid) hsome
    exact ⟨c, record, content, rfl, hr, hs, hnow, congrArg Response.fetched hres, hsize⟩
  | stage | discard | cleanup | restart | disturb => cases hg

/-- **An attachment that is over stays over**, and is not given any more. -/
theorem Turn.over (h : Sound s.issued s.world) (ht : Turn host s e s') (ho : Over s id) :
    Over s' id ∧ gives id e = false := by
  obtain ⟨hissued, hover⟩ := ho
  constructor
  · refine ⟨?_, fun r' hr' havailable => ?_⟩
    · rw [ht.issued]
      exact List.mem_append_right _ hissued
    · rcases (ht.sound h).2 id with hdeclines | ⟨hnew, -⟩
      · obtain ⟨r, hr, -, hexp, hst⟩ := hdeclines r' hr'
        rw [hexp]
        exact Int.le_trans (hover r hr (hst havailable)) ht.clock.1
      · exact absurd hissued (ht.generated id hnew).2
  · rw [Bool.eq_false_iff]
    intro hg
    obtain ⟨c, record, content, hc, hr, hs, hnow, -⟩ := ht.given hg
    have hle := Int.le_trans (hover record hr hs) (ht.clock.2 c hc).1
    exact absurd hnow (Int.not_lt.2 hle)

theorem lookup_setStatus_self {status : AttachmentStatus}
    (h : lookup AttachmentRecord.id id w.storage.records = some record) :
    lookup AttachmentRecord.id id (w.setStatus id status).storage.records =
      some { record with status } := by
  unfold World.setStatus
  dsimp only
  rw [lookup_map fun r => setStatus_id, h]
  exact congrArg some (if_pos (key_of_lookup h))

/-- What a `read` or a `consume` finds over, or makes so. -/
theorem Fetched.concluded
    (hf : Fetched host c w attachment take result w') (hid : attachmentId attachment = some id)
    (hsome : result.attachment.isSome = true)
    (htake : result.status = .available → ∀ record,
      lookup AttachmentRecord.id id w.storage.records = some record → ∀ r,
        lookup AttachmentRecord.id id (take id).storage.records = some r → r.status ≠ .available) :
    (lookup AttachmentRecord.id id w.storage.records).isSome = true ∧
      ∀ r, lookup AttachmentRecord.id id w'.storage.records = some r → r.status ≠ .available := by
  cases hf with
  | refused => cases hsome
  | late hid' hfound hover =>
    obtain rfl := Option.some.inj (hid'.symm.trans hid)
    refine ⟨Option.isSome_of_eq_some hfound, fun r hr => ?_⟩
    obtain rfl := Option.some.inj (hfound.symm.trans hr)
    exact hover
  | broken hid' hfound =>
    obtain rfl := Option.some.inj (hid'.symm.trans hid)
    refine ⟨Option.isSome_of_eq_some hfound, fun r hr => ?_⟩
    rw [removeDir_records, lookup_setStatus_self hfound] at hr
    obtain rfl := Option.some.inj hr
    show AttachmentStatus.missing ≠ .available
    decide
  | whole hid' hfound =>
    obtain rfl := Option.some.inj (hid'.symm.trans hid)
    exact ⟨Option.isSome_of_eq_some hfound, htake rfl _ hfound⟩

theorem Sound.issued_of_cleaned {issued : List String} {t : Option Int} (h : Sound issued w)
    (hsome : (lookup AttachmentRecord.id id (c.cleanupExpired t w).2.storage.records).isSome = true) :
    id ∈ issued := by
  rw [lookup_cleaned, Option.isSome_map] at hsome
  obtain ⟨r, hr⟩ := Option.isSome_iff_exists.1 hsome
  exact key_of_lookup hr ▸ h.issued r (mem_of_lookup hr)

/-- **A call that concludes an attachment** leaves it over. -/
theorem Turn.concluded (h : Sound s.issued s.world) (ht : Turn host s e s')
    (hcon : concludes id e = true) : Over s' id := by
  suffices hover : id ∈ s.issued ∧
      ∀ r, lookup AttachmentRecord.id id s'.world.storage.records = some r →
        r.status ≠ .available by
    refine ⟨?_, fun r hr havailable => absurd havailable (hover.2 r hr)⟩
    rw [ht.issued]
    exact List.mem_append_right _ hover.1
  obtain ⟨a, response⟩ := e
  have hresponse := ht.response
  rw [ht.world]
  cases a with
  | read c attachment context =>
    change response = .fetched _ at hresponse
    subst hresponse
    obtain ⟨hid, hne⟩ := Bool.and_eq_true_iff.1 hcon
    obtain ⟨hid, hsome⟩ := Bool.and_eq_true_iff.1 hid
    obtain ⟨hissued, hover⟩ :=
      (fetched_read : Fetched host c _ _ _ _ (s.world.read host c attachment context).2).concluded
        (of_decide_eq_true hid) hsome fun ha => absurd ha (of_decide_eq_true hne)
    exact ⟨h.issued_of_cleaned hissued, hover⟩
  | consume c attachment context =>
    change response = .fetched _ at hresponse
    subst hresponse
    obtain ⟨hid, hsome⟩ := Bool.and_eq_true_iff.1 hcon
    obtain ⟨hissued, hover⟩ :=
      (fetched_consume : Fetched host c _ _ _ _
          (s.world.consume host c attachment context).2).concluded
        (of_decide_eq_true hid) hsome fun _ record hfound r hr => by
          rw [removeDir_records, lookup_setStatus_self hfound] at hr
          obtain rfl := Option.some.inj hr
          show AttachmentStatus.consumed ≠ .available
          decide
    exact ⟨h.issued_of_cleaned hissued, hover⟩
  | discard c attachment context =>
    change response = .discarded _ at hresponse
    subst hresponse
    obtain ⟨hid, hfound⟩ := Bool.and_eq_true_iff.1 hcon
    have hid := of_decide_eq_true hid
    change id ∈ s.issued ∧ ∀ r, lookup AttachmentRecord.id id
      (s.world.discard c attachment context).2.storage.records = some r → _
    rcases discard_cases s.world c attachment context with hd | ⟨id', record, hid', hrecord, hd⟩
    · rw [hd] at hfound
      cases hfound
    · obtain rfl := Option.some.inj (hid'.symm.trans hid)
      refine ⟨h.issued_of_cleaned (Option.isSome_of_eq_some hrecord), fun r hr => ?_⟩
      rw [hd, lookup_forget, if_pos rfl] at hr
      cases hr
  | stage | cleanup | restart | disturb => cases hcon

theorem consumes_concludes (h : consumes id e = true) (ht : Turn host s e s') :
    concludes id e = true := by
  obtain ⟨a, response⟩ := e
  have hresponse := ht.response
  cases a with
  | consume c attachment context =>
    change response = .fetched _ at hresponse
    subst hresponse
    obtain ⟨hid, hsome⟩ := Bool.and_eq_true_iff.1 h
    obtain ⟨record, content, -, -, -, hres, -⟩ :=
      (fetched_consume : Fetched host c _ _ _ _ (s.world.consume host c attachment context).2).given
        (of_decide_eq_true hid) hsome
    refine Bool.and_eq_true_iff.2 ⟨hid, ?_⟩
    rw [hres]
    rfl
  | stage | read | discard | cleanup | restart | disturb => cases h

theorem gives_of_consumes (h : consumes id e = true) : gives id e = true := by
  obtain ⟨a, response⟩ := e
  cases a <;> cases response <;> first | exact h | cases h

/-- An attachment that is over is not given in the rest of a run. -/
theorem not_given_of_over (h : Sound s.issued s.world) (ho : Over s id)
    (hs : Steps (Turn host) s tr s') : ∀ e ∈ tr, gives id e = false := by
  induction hs with
  | nil => exact fun e he => nomatch he
  | cons ht _ ih =>
    obtain ⟨ho', hg⟩ := ht.over h ho
    intro e he
    rcases List.mem_cons.1 he with rfl | he
    · exact hg
    · exact ih (ht.sound h).1 ho' e he

theorem consumed_once (h : Sound s.issued s.world) (hs : Steps (Turn host) s tr s') :
    tr.countP (consumes id) ≤ 1 := by
  induction hs with
  | nil => exact Nat.zero_le _
  | @cons _ _ _ e _ ht hrest ih =>
    have h' := (ht.sound h).1
    rw [List.countP_cons]
    by_cases hconsumes : consumes id e = true
    · have hover := ht.concluded h (consumes_concludes hconsumes ht)
      have hnone := List.countP_eq_zero.2 fun e' he' hc => by
        have hg := not_given_of_over h' hover hrest e' he'
        rw [gives_of_consumes hc] at hg
        cases hg
      rw [hnone, if_pos hconsumes]
    · rw [if_neg hconsumes]
      exact ih h'

/-- A new instance over an empty root. -/
def opened (settings : Settings) (now : Int) : System where
  world := { storage := { settings } }
  now

theorem sound_opened {settings : Settings} : Sound [] (opened settings now).world :=
  ⟨fun r hr => (by cases hr), fun r hr => (by cases hr), fun d hd => (by cases hd)⟩

/-- Every record is that of an attachment the run has staged. -/
def Traced (tr : List Event) (s : System) : Prop :=
  ∀ id r, lookup AttachmentRecord.id id s.world.storage.records = some r →
    .staged (.ok r.reference) ∈ tr.map Prod.snd

theorem run_opened {settings : Settings} (hs : Steps (Turn host) (opened settings now) tr s) :
    Sound s.issued s.world ∧ Traced tr s := by
  refine hs.snocInduction (P := fun tr s => Sound s.issued s.world ∧ Traced tr s) ?_ ?_
  · exact ⟨sound_opened, fun id r hr => (by cases hr)⟩
  · rintro tr s e s' - ⟨h, htraced⟩ ht
    obtain ⟨h', hrecords⟩ := ht.sound h
    refine ⟨h', fun id r hr => ?_⟩
    rw [List.map_append, List.mem_append]
    rcases hrecords id with hdeclines | ⟨-, hstaged⟩
    · obtain ⟨r₀, hr₀, href, -⟩ := hdeclines r hr
      rw [href]
      exact Or.inl (htraced id r₀ hr₀)
    · exact Or.inr (List.mem_singleton.2 (hstaged r hr).symm)

/-- **An attachment is given until it is over, and consumed once.** In every run of stagings, reads,
consumptions, discards, cleanups and restarts, whatever happens to the files: at most one `consume`
gives the content of an attachment; from the state in which it is consumed, discarded, expired or
missing on, nothing gives it; and what is given has the size and the digest it was staged with. -/
theorem given_until_over {settings : Settings}
    (hs : Steps (Turn host) (opened settings now) tr s) :
    (∀ id, tr.countP (consumes id) ≤ 1) ∧
    (∀ id, Over s id → ∀ {tr' s'}, Steps (Turn host) s tr' s' → ∀ e ∈ tr', gives id e = false) ∧
    ∀ {e s'}, Turn host s e s' → ∀ id,
      (concludes id e = true → Over s' id) ∧
      (gives id e = true → ∃ record content, .staged (.ok record.reference) ∈ tr.map Prod.snd ∧
        record.id = id ∧ e.2 = .fetched (availableResult record content) ∧
        (∀ c, e.1.call? = some c → c.now < record.expiresAt) ∧
        content.length = record.reference.sizeBytes ∧
        host.sha256 content = record.reference.sha256) := by
  obtain ⟨h, htraced⟩ := run_opened hs
  refine ⟨fun id => consumed_once sound_opened hs,
    fun id ho tr' s' hs' => not_given_of_over h ho hs',
    fun {e s'} ht id => ⟨ht.concluded h, fun hg => ?_⟩⟩
  obtain ⟨c, record, content, hc, hr, -, hnow, hres, hsize, hsha⟩ := ht.given hg
  refine ⟨record, content, htraced id record hr, key_of_lookup hr, hres, fun c' hc' => ?_, hsize, hsha⟩
  obtain rfl := Option.some.inj (hc.symm.trans hc')
  exact hnow

end

/-! ## A text that is consumed -/

/-- A system whose digest is that of the two bytes `hi`. -/
def plainHost : Host where
  lower s := s
  sha256 _ := "8f434346648f6b96df89dda901c5176b10a6d83961dd3c1ac88b59b2dc327aa4"
  accepts _ := true
  hexdigest _ := by decide +kernel

def plainSettings : Settings where
  maxSizeBytes := 10
  retentionSeconds := 1
  allowedMediaTypes := ["text/plain"]
  maxSize_pos := by decide
  retention_pos := by decide
  allowed_ne_nil := by decide

def hiId : String := "0123456789abcdef0123456789abcdef"

def alice : AttachmentAccessContext := ⟨"alice", none⟩

def mallory : AttachmentAccessContext := ⟨"mallory", none⟩

/-- The call at an instant, where removals succeed. -/
def callAt (now : Int) : Call := ⟨now, fun _ => none⟩

def stageHi : Action :=
  .stage { toCall := callAt 1, uuid4 := hiId } (some "a.txt") (some "text/plain") [104, 105] alice

/-- One action after the other. -/
def perform (host : Host) (s : System) (a : Action) (now : Int) : System where
  world := a.leaves host s.world
  now
  issued := a.issues ++ s.issued

def staged : System := perform plainHost (opened plainSettings 0) stageHi 1

def consumeHi (now : Int) : Action := .consume (callAt now) (.id hiId) alice

theorem staged_turn : Turn plainHost (opened plainSettings 0)
    (stageHi, stageHi.response plainHost (opened plainSettings 0).world) staged where
  response := rfl
  world := rfl
  clock := ⟨by decide, fun c hc => by
    obtain rfl := Option.some.inj hc
    decide⟩
  removes c hc d := by
    obtain rfl := Option.some.inj hc
    rfl
  generated id hid := by
    obtain rfl := List.mem_singleton.1 hid
    exact ⟨by decide +kernel, fun h => (by cases h)⟩
  issued := rfl
  intact disk h := by cases h

theorem consumed_turn {s : System} {t : Int} (ht : s.now ≤ t) :
    Turn plainHost s (consumeHi t, (consumeHi t).response plainHost s.world)
      (perform plainHost s (consumeHi t) t) where
  response := rfl
  world := rfl
  clock := ⟨ht, fun c hc => by
    obtain rfl := Option.some.inj hc
    exact ⟨ht, Int.le_refl _⟩⟩
  removes c hc d := by
    obtain rfl := Option.some.inj hc
    rfl
  generated id hid := by cases hid
  issued := rfl
  intact disk h := by cases h

def consumed : System := perform plainHost staged (consumeHi 2) 2

/-- The text is staged and consumed, and asked for once more. -/
def consumption : List Event :=
  [(stageHi, stageHi.response plainHost (opened plainSettings 0).world),
    (consumeHi 2, (consumeHi 2).response plainHost staged.world),
    (consumeHi 3, (consumeHi 3).response plainHost consumed.world)]

theorem given_until_over_hi : consumption.countP (consumes hiId) = 1 ∧
    ∀ id, consumption.countP (consumes id) ≤ 1 := by
  have hs : Steps (Turn plainHost) (opened plainSettings 0) consumption
      (perform plainHost consumed (consumeHi 3) 3) :=
    .cons staged_turn (.cons (consumed_turn (by decide)) (.cons (consumed_turn (by decide)) (.nil _)))
  exact ⟨by decide +kernel, (given_until_over hs).1⟩

theorem staged_foreign : Foreign staged.world (.id hiId) mallory := by
  have hfound : (lookup AttachmentRecord.id hiId staged.world.storage.records).any
      fun r => mallory.subject ≠ r.ownerSubject := by decide +kernel
  obtain ⟨record, hrecord, hne⟩ := Option.any_eq_true _ _ |>.1 hfound
  exact ⟨hiId, record, by decide +kernel, hrecord, Or.inl (of_decide_eq_true hne)⟩

theorem foreign_is_unknown_mallory :
    staged.world.read plainHost (callAt 2) (.id hiId) mallory =
        staged.world.read plainHost (callAt 2) (.id "no id") mallory ∧
      (staged.world.discard (callAt 2) (.id hiId) mallory).1 = false := by
  obtain ⟨⟨-, -, hdiscard⟩, hunknown⟩ :=
    @foreign_is_unknown plainHost (callAt 2) _ _ _ staged_foreign
  refine ⟨(hunknown (.id "no id") mallory fun id hid => ?_).1, by rw [hdiscard]⟩
  have hnone : attachmentId (.id "no id") = none := by decide +kernel
  rw [hnone] at hid
  cases hid

end GoAgent.Attachments.Filesystem
