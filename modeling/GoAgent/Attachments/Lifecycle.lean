import GoAgent.Attachments.Storage
import GoAgent.Foundation.Triple
import Mathlib.Algebra.Order.Ring.Int

/-!
# The life of a staged attachment

`Kept` says that a staged attachment is on record, and that its file is whole until it expires.
`Extends p n s t` says that from `s` to `t` the storage has kept every attachment with an id below
`n`: so does a staging, a read, and a discard of a later attachment.

* `stageAttachment_spec` — what a staging leaves, when it returns and when it raises.
* `read_kept` — an attachment that has not expired is read as it was staged.
-/

namespace GoAgent.Attachments

open GoAgent.Foundation

namespace Storage

variable {p : Platform} {env : Environment} {n : UUID} {s t u : Storage} {id : UUID}
  {reference : AttachmentRef} {context : AttachmentAccessContext} {record : AttachmentRecord}

/-! ## Records -/

/-- The file of a record is whole, or its time is over. -/
def Intact (p : Platform) (now : Int) (record : AttachmentRecord) : Prop :=
  record.expiresAt ≤ now ∨
    record.status = .available ∧ (readVerifiedContent p record).isSome

structure Kept (p : Platform) (s : Storage) (reference : AttachmentRef)
    (context : AttachmentAccessContext) (record : AttachmentRecord) : Prop where
  found : lookup AttachmentRecord.id reference.attachmentId s.records = some record
  reference : record.reference = reference
  subject : context.subject = record.ownerSubject
  conversation : context.conversationId = record.conversationId
  intact : Intact p s.now record

/-- Every id on record has been given out. -/
def Numbered (s : Storage) : Prop := ∀ r ∈ s.records, r.id < s.issued

@[simp] theorem cleaned_id {now : Int} : (record.cleaned now).id = record.id := by
  unfold AttachmentRecord.cleaned
  split <;> rfl

@[simp] theorem cleaned_reference {now : Int} : (record.cleaned now).reference = record.reference := by
  unfold AttachmentRecord.cleaned
  split <;> rfl

@[simp] theorem cleaned_ownerSubject {now : Int} :
    (record.cleaned now).ownerSubject = record.ownerSubject := by
  unfold AttachmentRecord.cleaned
  split <;> rfl

@[simp] theorem cleaned_conversationId {now : Int} :
    (record.cleaned now).conversationId = record.conversationId := by
  unfold AttachmentRecord.cleaned
  split <;> rfl

@[simp] theorem cleaned_expiresAt {now : Int} : (record.cleaned now).expiresAt = record.expiresAt := by
  unfold AttachmentRecord.cleaned
  split <;> rfl

theorem cleaned_of_fresh {now : Int} (h : now < record.expiresAt) : record.cleaned now = record :=
  if_pos (Or.inr h)

theorem intact_cleaned {now : Int} (h : Intact p now record) : Intact p now (record.cleaned now) := by
  rcases h with h | h
  · exact Or.inl (by rwa [cleaned_expiresAt])
  · by_cases hfresh : now < record.expiresAt
    · rw [cleaned_of_fresh hfresh]
      exact Or.inr h
    · exact Or.inl (by rw [cleaned_expiresAt]; exact not_lt.1 hfresh)

theorem intact_mono {now now' : Int} (h : Intact p now record) (hle : now ≤ now') :
    Intact p now' record := h.imp_left fun he => he.trans hle

theorem lookup_cleanupExpired : lookup AttachmentRecord.id id s.cleanupExpired.records =
    (lookup AttachmentRecord.id id s.records).map (AttachmentRecord.cleaned s.now) := by
  unfold cleanupExpired lookup
  rw [List.find?_map]
  congr 2
  funext r
  exact congrArg (fun x => decide (x = id)) cleaned_id

/-! ## What the operations keep -/

/-- The storage has gone on, and has kept the attachments with an id below `n`. -/
structure Extends (p : Platform) (n : UUID) (s t : Storage) : Prop where
  now : s.now ≤ t.now
  issued : s.issued ≤ t.issued
  numbered : s.Numbered → t.Numbered
  kept : ∀ {reference context record}, reference.attachmentId < n →
    Kept p s reference context record →
      ∃ record', Kept p t reference context record' ∧ record'.expiresAt = record.expiresAt

theorem Extends.refl : Extends p n s s :=
  ⟨le_refl _, le_refl _, id, fun {_ _ record} _ h => ⟨record, h, rfl⟩⟩

theorem Extends.trans (h₁ : Extends p n s t) (h₂ : Extends p n t u) : Extends p n s u := by
  refine ⟨h₁.now.trans h₂.now, h₁.issued.trans h₂.issued, fun h => h₂.numbered (h₁.numbered h), ?_⟩
  intro reference context record hid h
  obtain ⟨record₁, hkept₁, he₁⟩ := h₁.kept hid h
  obtain ⟨record₂, hkept₂, he₂⟩ := h₂.kept hid hkept₁
  exact ⟨record₂, hkept₂, he₂.trans he₁⟩

theorem Extends.mono {m : UUID} (h : Extends p n s t) (hm : m ≤ n) : Extends p m s t :=
  ⟨h.now, h.issued, h.numbered, fun hid hkept => h.kept (lt_of_lt_of_le hid hm) hkept⟩

theorem numbered_cleanupExpired (h : s.Numbered) : s.cleanupExpired.Numbered := by
  intro r hr
  obtain ⟨r', hr', rfl⟩ := List.mem_map.1 hr
  rw [cleaned_id]
  exact h r' hr'

theorem kept_cleanupExpired (h : Kept p s reference context record) :
    Kept p s.cleanupExpired reference context (record.cleaned s.now) := by
  refine ⟨?_, ?_, ?_, ?_, intact_cleaned h.intact⟩
  · rw [lookup_cleanupExpired, h.found]
    rfl
  · rw [cleaned_reference, h.reference]
  · rw [cleaned_ownerSubject, h.subject]
  · rw [cleaned_conversationId, h.conversation]

theorem extends_cleanupExpired : Extends p n s s.cleanupExpired :=
  ⟨le_refl _, le_refl _, numbered_cleanupExpired, fun {_ _ _} _ h =>
    ⟨_, kept_cleanupExpired h, cleaned_expiresAt⟩⟩

/-- A change that leaves the records. -/
theorem extends_of_records (hnow : s.now ≤ t.now) (hissued : s.issued ≤ t.issued)
    (hrecords : t.records = s.records) : Extends p n s t := by
  refine ⟨hnow, hissued, fun h r hr => ?_, fun {_ _ record} _ h => ⟨record, ?_, rfl⟩⟩
  · rw [hrecords] at hr
    exact lt_of_lt_of_le (h r hr) hissued
  · exact ⟨hrecords ▸ h.found, h.reference, h.subject, h.conversation, intact_mono h.intact hnow⟩

/-- A new record. -/
theorem extends_append {new : AttachmentRecord} (hissued : new.id < s.issued) :
    Extends p n s { s with records := s.records ++ [new] } := by
  refine ⟨le_refl _, le_refl _, fun h r hr => ?_, fun {_ _ record} hid h => ⟨record, ?_, rfl⟩⟩
  · rcases List.mem_append.1 hr with hr | hr
    · exact h r hr
    · rw [List.mem_singleton.1 hr]
      exact hissued
  · refine ⟨?_, h.reference, h.subject, h.conversation, h.intact⟩
    have hfound := h.found
    unfold lookup at hfound ⊢
    rw [List.find?_append, hfound]
    rfl

theorem lookup_filter_ne {rows : List AttachmentRecord} {j : UUID} (hj : id ≠ j) :
    lookup AttachmentRecord.id id (rows.filter fun r => r.id ≠ j) =
      lookup AttachmentRecord.id id rows := by
  unfold lookup
  rw [List.find?_filter]
  congr 1
  funext r
  by_cases hr : r.id = id
  · simp [hr, hj]
  · simp [hr]

theorem extends_discard (hn : n ≤ id) : Extends p n s (s.discard id context) := by
  refine Extends.trans extends_cleanupExpired ?_
  unfold discard
  dsimp only
  split
  · exact Extends.refl
  · refine ⟨le_refl _, le_refl _, fun h r hr => h r (List.mem_of_mem_filter hr), ?_⟩
    intro reference context' record hid h
    refine ⟨record, ⟨?_, h.reference, h.subject, h.conversation, h.intact⟩, rfl⟩
    rw [lookup_filter_ne (ne_of_lt (lt_of_lt_of_le hid hn))]
    exact h.found

theorem lookup_of_recordForContext (h : s.recordForContext id context = some record) :
    lookup AttachmentRecord.id id s.records = some record := by
  unfold recordForContext at h
  split at h
  · cases h
  · next r hr =>
    split at h
    · cases h
    · split at h
      · cases h
      · rw [hr, Option.some.inj h]

/-- A read spoils no record that is intact. -/
theorem extends_read : Extends p n s (s.read p id context).2 := by
  refine Extends.trans extends_cleanupExpired ?_
  unfold read
  dsimp only
  split
  · exact Extends.refl
  · next record hfound =>
    split
    · exact Extends.refl
    · next hstatus =>
      split
      · next hnone =>
        have hlookup := lookup_of_recordForContext hfound
        have hid : record.id = id := key_of_lookup hlookup
        refine ⟨le_refl _, le_refl _, fun h r hr => ?_, fun {reference _ record'} _ h => ?_⟩
        · rcases mem_replace hr with rfl | ⟨hr, -⟩
          · exact h record (mem_of_lookup hlookup)
          · exact h r hr
        · refine ⟨record', ⟨?_, h.reference, h.subject, h.conversation, h.intact⟩, rfl⟩
          by_cases he : reference.attachmentId = id
          · -- an intact record that is available is verified
            exfalso
            have hsame : record' = record := by
              have := h.found
              rw [he, hlookup] at this
              exact (Option.some.inj this).symm
            subst hsame
            rcases h.intact with hexpired | ⟨-, hsome⟩
            · have hmem := mem_of_lookup hlookup
              obtain ⟨r, -, rfl⟩ := List.mem_map.1 hmem
              rw [cleaned_expiresAt] at hexpired
              unfold AttachmentRecord.cleaned at hstatus
              split at hstatus
              · next hkeep =>
                rcases hkeep with hkeep | hkeep
                · exact hstatus hkeep
                · exact absurd hkeep (not_lt.2 hexpired)
              · exact hstatus (by simp)
            · rw [hnone] at hsome
              cases hsome
          · have hmissing :
                ({ record with status := .missing, file := none } : AttachmentRecord).id = id := hid
            exact (lookup_replace_ne hmissing he).trans h.found
      · exact Extends.refl

/-! ## Reading -/

/-- An attachment on record is found by the one it was staged for. -/
theorem recordForContext_kept (h : Kept p s reference context record) :
    s.recordForContext reference.attachmentId context = some record := by
  unfold recordForContext
  rw [h.found]
  dsimp only
  rw [if_neg (not_not.2 h.subject), if_neg fun hc => hc.2 h.conversation]

/-- **An attachment that has not expired is read as it was staged.** -/
theorem read_kept (h : Kept p s reference context record) (hfresh : s.now < record.expiresAt) :
    ∃ content, s.read p reference.attachmentId context =
      ({ status := .available, attachment := some reference, content := some content },
        s.cleanupExpired) := by
  have hkept := kept_cleanupExpired h
  rw [cleaned_of_fresh hfresh] at hkept
  rcases h.intact with hexpired | ⟨havailable, hsome⟩
  · exact absurd hfresh (not_lt.2 hexpired)
  · obtain ⟨content, hcontent⟩ := Option.isSome_iff_exists.1 hsome
    refine ⟨content, ?_⟩
    unfold read
    dsimp only
    rw [recordForContext_kept hkept]
    dsimp only
    rw [if_neg (not_not.2 havailable), hcontent]
    dsimp only
    rw [h.reference]

/-- What a read finds available has a name that is not taken for a file being written. -/
theorem read_available (h : (s.read p id context).1.status = .available)
    {attachment : AttachmentRef} (ha : (s.read p id context).1.attachment = some attachment) :
    attachment.fileName.endsWith ".part" = false := by
  unfold read at h ha
  dsimp only at h ha
  split at h
  · cases h
  · next record hfound =>
    rw [hfound] at ha
    dsimp only at h ha
    split at h
    · next hstatus => exact absurd h hstatus
    · next hstatus =>
      rw [if_neg hstatus] at ha
      split at h
      · cases h
      · next content hcontent =>
        rw [hcontent] at ha
        dsimp only at ha
        obtain rfl := Option.some.inj ha
        unfold readVerifiedContent at hcontent
        split at hcontent
        · cases hcontent
        · split at hcontent
          · cases hcontent
          · next hname => exact Bool.eq_false_iff.2 hname

/-! ## Staging -/

/-- The conditions on a file that the storage stages. -/
structure Stageable (p : Platform) (fileName mediaType : String) (content : Bytes) : Prop where
  validName : validFileName (baseName fileName) = true
  name : isBlank (baseName fileName) = false
  allowed : p.lower (strip mediaType) ∈ p.allowedMediaTypes
  media : isBlank (p.lower (strip mediaType)) = false
  size : content.length ≤ p.maxSizeBytes
  content : content ≠ []
  accepted : p.accepts (baseName fileName) = true

instance {fileName mediaType : String} {content : Bytes} :
    Decidable (Stageable p fileName mediaType content) :=
  decidable_of_iff
    (validFileName (baseName fileName) = true ∧ isBlank (baseName fileName) = false ∧
      p.lower (strip mediaType) ∈ p.allowedMediaTypes ∧
      isBlank (p.lower (strip mediaType)) = false ∧ content.length ≤ p.maxSizeBytes ∧
      content ≠ [] ∧ p.accepts (baseName fileName) = true)
    ⟨fun ⟨h₁, h₂, h₃, h₄, h₅, h₆, h₇⟩ => ⟨h₁, h₂, h₃, h₄, h₅, h₆, h₇⟩,
      fun ⟨h₁, h₂, h₃, h₄, h₅, h₆, h₇⟩ => ⟨h₁, h₂, h₃, h₄, h₅, h₆, h₇⟩⟩

/-- What a file is staged as. -/
def stagedRef (p : Platform) (attachmentId : UUID) (fileName mediaType : String)
    (content : Bytes) : AttachmentRef where
  attachmentId
  fileName := baseName fileName
  mediaType := p.lower (strip mediaType)
  sizeBytes := content.length
  sha256 := p.sha256 content

/-- Some way into a staging: nothing is on record yet. -/
structure Staging (env : Environment) (s t : Storage) : Prop where
  records : t.records = s.cleanupExpired.records
  now : s.now ≤ t.now
  issued : s.issued ≤ t.issued
  instant : (∀ n, env.elapses n = 0) → t.now = s.now

/-- The record of a staged file. -/
structure Staged (p : Platform) (env : Environment) (fileName mediaType : String)
    (content : Bytes) (context : AttachmentAccessContext) (s t : Storage)
    (record : AttachmentRecord) : Prop where
  reference : record.reference = stagedRef p s.issued fileName mediaType content
  subject : context.subject = record.ownerSubject
  conversation : context.conversationId = record.conversationId
  status : record.status = .available
  file : record.file = some content
  expires : s.now < record.expiresAt
  records : t.records = s.cleanupExpired.records ++ [record]
  now : s.now ≤ t.now
  issued : t.issued = s.issued + 1
  instant : (∀ n, env.elapses n = 0) → t.now = s.now

theorem write_spec {P Q : Storage → Prop}
    (hQ : ∀ s, P s → Q { s with writes := s.writes + 1, now := s.now + env.elapses s.writes }) :
    Triple P (write env) (fun _ => Q) fun t => Q t ∧ ∃ n, env.fails n = true := by
  refine Triple.bind Triple.get fun s => ?_
  refine Triple.bind (R := fun _ t => Q t) (Triple.set fun t h => hQ s (h.1 ▸ h.2)) fun _ => ?_
  refine Triple.check (fun t _ h => h) fun t hfails h => ⟨h, s.writes, ?_⟩
  exact Bool.not_eq_false _ ▸ hfails

theorem staging_write (h : Staging env s t) :
    Staging env s { t with writes := t.writes + 1, now := t.now + env.elapses t.writes } := by
  refine ⟨h.records, ?_, h.issued, fun hinstant => ?_⟩
  · have := h.now
    show s.now ≤ t.now + (env.elapses t.writes : Int)
    omega
  · show t.now + (env.elapses t.writes : Int) = s.now
    rw [h.instant hinstant, hinstant]
    exact Int.add_zero _

/-- So far no id is given out, or one is. -/
def Stages (env : Environment) (s : Storage) (ids : Nat) (t : Storage) : Prop :=
  Staging env s t ∧ t.issued = s.issued + ids

theorem normalized_ok {fileName mediaType : String} {r : String × String}
    (h : normalized p fileName mediaType = .ok r) :
    r = (baseName fileName, p.lower (strip mediaType)) ∧
      validFileName (baseName fileName) = true ∧
      p.lower (strip mediaType) ∈ p.allowedMediaTypes := by
  simp only [normalized, except_bind_ok, exists_unit, require_ok] at h
  obtain ⟨hname, hmedia, hr⟩ := h
  exact ⟨(Except.ok.inj hr).symm, hname, hmedia⟩

theorem normalized_of {fileName mediaType : String} {content : Bytes}
    (h : Stageable p fileName mediaType content) :
    normalized p fileName mediaType = .ok (baseName fileName, p.lower (strip mediaType)) := by
  simp only [normalized, except_bind_ok, exists_unit, require_ok]
  exact ⟨h.validName, h.allowed, trivial⟩

theorem newId_spec : Triple (Stages env s 0) newId
    (fun id t => Stages env s 1 t ∧ id = s.issued) (fun _ => False) := by
  refine Triple.bind Triple.get fun t => ?_
  refine Triple.bind (R := fun _ u => Stages env s 1 u ∧ t.issued = s.issued)
    (Triple.set fun u h => ?_) fun _ => Triple.pure fun u h => h
  obtain ⟨rfl, hs, hissued⟩ := h
  exact ⟨⟨⟨hs.records, hs.now, Nat.le_succ_of_le hs.issued, hs.instant⟩,
    congrArg (· + 1) hissued⟩, hissued⟩

theorem stages_write {ids : Nat} :
    Triple (Stages env s ids) (write env) (fun _ => Stages env s ids)
      fun t => Stages env s ids t ∧ ∃ n, env.fails n = true :=
  write_spec fun _ h => ⟨staging_write h.1, h.2⟩

theorem writeContent_spec {fileName : String} {content : Bytes} :
    Triple (Stages env s 1) (writeContent p env fileName content)
      (fun _ t => Stages env s 1 t ∧ content.length ≤ p.maxSizeBytes ∧ content ≠ [] ∧
        p.accepts fileName = true)
      (fun t => Stages env s 1 t ∧
        (content.length ≤ p.maxSizeBytes → content ≠ [] → p.accepts fileName = true →
          ∃ n, env.fails n = true)) := by
  refine Triple.bind (stages_write.imp (fun _ h => h) (fun _ _ h => h)
    fun _ h => ⟨h.1, fun _ _ _ => h.2⟩) fun _ => ?_
  refine Triple.bind (R := fun _ t => Stages env s 1 t ∧ content.length ≤ p.maxSizeBytes)
    (Triple.check (fun _ hp h => ⟨h, hp⟩) fun _ hp h => ⟨h, fun hsize => absurd hsize hp⟩)
    fun _ => ?_
  refine Triple.bind (R := fun _ t => (Stages env s 1 t ∧ content.length ≤ p.maxSizeBytes) ∧
    content ≠ []) (Triple.check (fun _ hp h => ⟨h, hp⟩) fun _ hp h =>
      ⟨h.1, fun _ hcontent => absurd hcontent hp⟩) fun _ => ?_
  exact Triple.check (fun _ hp h => ⟨h.1.1, h.1.2, h.2, hp⟩) fun _ hp h =>
    ⟨h.1.1, fun _ _ haccepts => absurd haccepts hp⟩

theorem register_spec {fileName mediaType : String} {content : Bytes} :
    Triple (Stages env s 1)
      (register p env (stagedRef p s.issued fileName mediaType content) content context)
      (fun _ t => ∃ record, Staged p env fileName mediaType content context s t record)
      (fun t => Stages env s 1 t ∧ ∃ n, env.fails n = true) := by
  refine Triple.bind Triple.get fun t₀ => ?_
  have hwrite : Triple (fun t => t₀ = t ∧ Stages env s 1 t) (write env)
      (fun _ t => s.now ≤ t₀.now ∧ Stages env s 1 t)
      (fun t => (s.now ≤ t₀.now ∧ Stages env s 1 t) ∧ ∃ n, env.fails n = true) :=
    write_spec fun t h => ⟨h.1 ▸ h.2.1.now, staging_write h.2.1, h.2.2⟩
  refine Triple.bind (hwrite.imp (fun _ h => h) (fun _ _ h => h) fun _ h => ⟨h.1.2, h.2⟩)
    fun _ => Triple.modify fun t h => ?_
  obtain ⟨hle, hstaging, hissued⟩ := h
  have hpos := p.retention_pos
  refine ⟨_, rfl, rfl, rfl, rfl, rfl, ?_, congrArg (· ++ _) hstaging.records, hstaging.now,
    hissued, hstaging.instant⟩
  show s.now < t₀.now + (p.retentionSeconds : Int) * 1000000
  omega

/-- **What a staging leaves.** -/
theorem stageAttachment_spec {fileName mediaType : String} {content : Bytes}
    (hsubject : isBlank context.subject = false) :
    Triple (· = s) (stageAttachment p env fileName mediaType content context)
      (fun reference t => Stageable p fileName mediaType content ∧
        reference = stagedRef p s.issued fileName mediaType content ∧
        ∃ record, Staged p env fileName mediaType content context s t record)
      (fun t => Staging env s t ∧
        (Stageable p fileName mediaType content → ∃ n, env.fails n = true)) := by
  refine Triple.bind (R := fun _ => Stages env s 0) (Triple.modify fun t ht => ?_) fun _ => ?_
  · subst ht
    exact ⟨⟨rfl, Int.le_refl _, Nat.le_refl _, fun _ => rfl⟩, rfl⟩
  refine Triple.bind (R := fun _ => Stages env s 0)
    (Triple.check (fun _ _ h => h) fun _ hblank _ => absurd hsubject hblank) fun _ => ?_
  refine Triple.bind (R := fun r t => Stages env s 0 t ∧
      r = (baseName fileName, p.lower (strip mediaType)) ∧
      validFileName (baseName fileName) = true ∧ p.lower (strip mediaType) ∈ p.allowedMediaTypes)
    (Triple.lift (fun r t hr h => ⟨h, normalized_ok hr⟩) fun e t he h => ⟨h.1, fun hok => ?_⟩)
    fun r => ?_
  · rw [normalized_of hok] at he
    cases he
  apply Triple.fact
  rintro ⟨rfl, hname, hallowed⟩
  refine Triple.bind (newId_spec.imp (fun _ h => h) (fun _ _ h => h) fun _ h => h.elim)
    fun attachmentId => ?_
  refine Triple.fact fun hid => ?_
  subst hid
  refine Triple.bind (writeContent_spec.imp (fun _ h => h) (fun _ _ h => h)
    fun _ h => ⟨h.1.1, fun hok => h.2 hok.size hok.content hok.accepted⟩) fun _ => ?_
  refine Triple.bind (R := fun reference t => Stages env s 1 t ∧
      Stageable p fileName mediaType content ∧
      reference = stagedRef p s.issued fileName mediaType content)
    (Triple.lift (fun reference t hr h => ?_) fun e t he h => ⟨h.1.1, fun hok => ?_⟩)
    fun reference => ?_
  · obtain ⟨hstages, hsize, hcontent, haccepted⟩ := h
    simp only [AttachmentRef.checked, except_bind_ok, exists_unit, require_ok] at hr
    obtain ⟨hnotblank, hmedia, -, hr⟩ := hr
    exact ⟨hstages, ⟨hname, hnotblank, hallowed, hmedia, hsize, hcontent, haccepted⟩,
      (Except.ok.inj hr).symm⟩
  · have hchecked : AttachmentRef.checked (stagedRef p s.issued fileName mediaType content) =
        .ok (stagedRef p s.issued fileName mediaType content) := by
      simp only [AttachmentRef.checked, except_bind_ok, exists_unit, require_ok]
      exact ⟨hok.name, hok.media, p.hexdigest content, trivial⟩
    rw [stagedRef] at hchecked
    rw [hchecked] at he
    cases he
  · apply Triple.fact
    rintro ⟨hok, rfl⟩
    refine Triple.bind (register_spec.imp (fun _ h => h) (fun _ _ h => h)
      fun _ h => ⟨h.1.1, fun _ => h.2⟩) fun _ => Triple.pure fun t h => ⟨hok, rfl, h⟩

theorem extends_staging (h : Staging env s t) : Extends p n s t :=
  extends_cleanupExpired.trans (extends_of_records h.now h.issued h.records)

section

variable {fileName mediaType : String} {content : Bytes}

theorem extends_staged (h : Staged p env fileName mediaType content context s t record) :
    Extends p n s t := by
  let u : Storage := { t with records := s.cleanupExpired.records }
  have hu : Extends p n s u := extends_cleanupExpired.trans
    (extends_of_records h.now (Nat.le_of_lt (Nat.lt_of_lt_of_eq (Nat.lt_succ_self _) h.issued.symm))
      rfl)
  have hid : record.id < u.issued := by
    show record.reference.attachmentId < t.issued
    rw [h.reference, h.issued]
    exact Nat.lt_succ_self _
  have ht : t = { u with records := u.records ++ [record] } := by
    show t = { t with records := s.cleanupExpired.records ++ [record] }
    rw [← h.records]
  rw [ht]
  exact hu.trans (extends_append hid)

/-- A staged file is kept, under a name that is not taken for a file being written. -/
theorem kept_staged (h : Staged p env fileName mediaType content context s t record)
    (hnumbered : s.Numbered) (hname : (baseName fileName).endsWith ".part" = false) :
    Kept p t (stagedRef p s.issued fileName mediaType content) context record := by
  have hid : record.id = s.issued := congrArg AttachmentRef.attachmentId h.reference
  refine ⟨?_, h.reference, h.subject, h.conversation, Or.inr ⟨h.status, ?_⟩⟩
  · show lookup AttachmentRecord.id s.issued t.records = some record
    rw [h.records, lookup, List.find?_append]
    have hnone : s.cleanupExpired.records.find? (fun r => r.id = s.issued) = none := by
      apply List.find?_eq_none.2
      intro r hr he
      have hlt : r.id < s.issued := numbered_cleanupExpired hnumbered r hr
      exact absurd (by simpa using he) (Nat.ne_of_lt hlt)
    rw [hnone]
    simp [hid]
  · unfold readVerifiedContent
    rw [h.file]
    dsimp only
    rw [h.reference, if_neg (by simpa [stagedRef] using hname), if_neg (by simp [stagedRef])]
    rfl

end

end Storage

end GoAgent.Attachments
