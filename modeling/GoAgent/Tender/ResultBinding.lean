import GoAgent.Attachments.Lifecycle
import GoAgent.Tender.ResultResources

/-!
# What a save binds

`Owned` says what a save has on record while it runs: the attachments that were there before, and
those it has created, which belong to its owner and conversation. `Progress` adds that each created
resource is kept. `createResources_spec` is the loop of the save; when it raises, what is left is
`Owned` with nothing created.

* `later_of_moves` — later steps keep what a save has returned.
* `binds_iff` — when a save binds its resources.
-/

namespace GoAgent.Tender

open GoAgent.Foundation GoAgent.Attachments

variable {p : Platform} {env : Environment} {taskId : UUID} {ownerSubject conversationId : String}
  {artifacts : List GeneratedTenderArtifact} {artifact : GeneratedTenderArtifact}
  {created resources : List TaskResultResource} {s₀ s t : ResultStore}

/-! ## The context of a task -/

def access (ownerSubject conversationId : String) : AttachmentAccessContext :=
  ⟨strip ownerSubject, some (strip conversationId)⟩

theorem isBlank_strip {x : String} (h : isBlank x = false) : isBlank (strip x) = false := by
  unfold isBlank at h
  obtain ⟨c, hc, hspace⟩ := List.all_eq_false.1 h
  have hspace : isSpace c = false := by simpa using hspace
  exact isBlank_eq_false (mem_strip hc hspace) hspace

theorem make_ok (howner : isBlank ownerSubject = false)
    (hconversation : isBlank conversationId = false) :
    AttachmentAccessContext.make ownerSubject (some conversationId) =
      .ok (access ownerSubject conversationId) := by
  simp [AttachmentAccessContext.make, require, howner, hconversation, access, bind, Except.bind]

theorem make_error (conversationId : String) (howner : isBlank ownerSubject = true) :
    ∃ e, AttachmentAccessContext.make ownerSubject (some conversationId) = .error e := by
  refine ⟨.valueError "attachment access subject must be non-empty", ?_⟩
  simp [AttachmentAccessContext.make, require, howner, bind, Except.bind]

/-! ## Staged resources -/

def TaskResultResource.reference (resource : TaskResultResource) : AttachmentRef where
  attachmentId := resource.resourceId
  fileName := resource.fileName
  mediaType := resource.mediaType
  sizeBytes := resource.sizeBytes
  sha256 := resource.sha256

/-- The conditions on an artifact that a save stages for its owner. -/
def Stageable (p : Platform) (ownerSubject : String) (artifact : GeneratedTenderArtifact) : Prop :=
  isBlank ownerSubject = false ∧
    Storage.Stageable p artifact.fileName artifact.mediaType artifact.content

instance {p : Platform} {ownerSubject : String} {artifact : GeneratedTenderArtifact} :
    Decidable (Stageable p ownerSubject artifact) := by
  unfold Stageable
  infer_instance

/-- The resource of a staged artifact. -/
def stagedResource (p : Platform) (resourceId : UUID) (artifact : GeneratedTenderArtifact) :
    TaskResultResource where
  resourceId
  fileName := baseName artifact.fileName
  mediaType := p.lower (strip artifact.mediaType)
  sizeBytes := artifact.content.length
  sha256 := p.sha256 artifact.content

/-- The metadata of an artifact once it is staged. -/
def stagedMetadata (p : Platform) (artifact : GeneratedTenderArtifact) : Identity :=
  (baseName artifact.fileName, p.lower (strip artifact.mediaType), artifact.content.length,
    p.sha256 artifact.content)

theorem checked_stagedResource (resourceId : UUID) (h : Stageable p ownerSubject artifact) :
    (stagedResource p resourceId artifact).checked = .ok (stagedResource p resourceId artifact) := by
  simp only [TaskResultResource.checked, except_bind_ok, exists_unit, require_ok]
  exact ⟨h.2.name, h.2.media, List.length_pos_iff.2 h.2.content, p.hexdigest _, trivial⟩

/-! ## The loop of a save -/

structure Owned (p : Platform) (ownerSubject conversationId : String) (s₀ : ResultStore)
    (ids : List UUID) (s : ResultStore) : Prop where
  manifests : s.manifests = s₀.manifests
  grown : Storage.Extends p s₀.storage.issued s₀.storage s.storage
  numbered : s.storage.Numbered
  fresh : ∀ id ∈ ids, s₀.storage.issued ≤ id
  owner : ids ≠ [] → isBlank ownerSubject = false
  owned : ∀ r ∈ s.storage.records, r.id < s₀.storage.issued ∨
    (r.id ∈ ids ∧ (access ownerSubject conversationId).subject = r.ownerSubject ∧
      (access ownerSubject conversationId).conversationId = r.conversationId)

structure Progress (p : Platform) (env : Environment) (ownerSubject conversationId : String)
    (s₀ : ResultStore) (created : List TaskResultResource) (s : ResultStore) : Prop
    extends Owned p ownerSubject conversationId s₀ (created.map TaskResultResource.resourceId) s where
  checked : ∀ r ∈ created, r.checked = .ok r
  bounded : ∀ r ∈ created, r.resourceId < s.storage.issued
  kept : ∀ r ∈ created, r.fileName.endsWith ".part" = false →
    ∃ record, Storage.Kept p s.storage r.reference (access ownerSubject conversationId) record
  instant : (∀ n, env.elapses n = 0) →
    ∀ r ∈ s.storage.records, r.id ∈ created.map TaskResultResource.resourceId →
      s.storage.now < r.expiresAt

/-- The storage has gone on, and has staged nothing. -/
theorem Progress.goOn {storage : Storage}
    (h : Progress p env ownerSubject conversationId s₀ created s)
    (hextends : Storage.Extends p s.storage.issued s.storage storage)
    (hrecords : ∀ r ∈ storage.records, ∃ r' ∈ s.storage.records, r.id = r'.id ∧
      r.ownerSubject = r'.ownerSubject ∧ r.conversationId = r'.conversationId ∧
      r.expiresAt = r'.expiresAt)
    (hinstant : (∀ n, env.elapses n = 0) → storage.now = s.storage.now) :
    Progress p env ownerSubject conversationId s₀ created { s with storage } := by
  refine { manifests := h.manifests
           grown := h.grown.trans (hextends.mono h.grown.issued)
           numbered := hextends.numbered h.numbered
           fresh := h.fresh
           owner := h.owner
           owned := fun r hr => ?_
           checked := h.checked
           bounded := fun r hr => lt_of_lt_of_le (h.bounded r hr) hextends.issued
           kept := fun r hr hname => ?_
           instant := fun hzero r hr hid => ?_ }
  · obtain ⟨r', hr', hid, hsubject, hconversation, -⟩ := hrecords r hr
    rw [hid, hsubject, hconversation]
    exact h.owned r' hr'
  · obtain ⟨record, hkept⟩ := h.kept r hr hname
    obtain ⟨record', hkept', -⟩ := hextends.kept (h.bounded r hr) hkept
    exact ⟨record', hkept'⟩
  · obtain ⟨r', hr', hid', -, -, hexpires⟩ := hrecords r hr
    show storage.now < _
    rw [hinstant hzero, hexpires]
    exact h.instant hzero r' hr' (hid' ▸ hid)

theorem Progress.write (h : Progress p env ownerSubject conversationId s₀ created s) :
    Progress p env ownerSubject conversationId s₀ created { s with
      storage := { s.storage with
        writes := s.storage.writes + 1
        now := s.storage.now + env.elapses s.storage.writes } } := by
  refine h.goOn (Storage.extends_of_records ?_ (Nat.le_refl _) rfl)
    (fun r hr => ⟨r, hr, rfl, rfl, rfl, rfl⟩) fun hzero => ?_
  · show s.storage.now ≤ s.storage.now + (env.elapses s.storage.writes : Int)
    omega
  · show s.storage.now + (env.elapses s.storage.writes : Int) = s.storage.now
    rw [hzero]
    exact Int.add_zero _

theorem mem_cleanupExpired {storage : Storage} {r : AttachmentRecord}
    (h : r ∈ storage.cleanupExpired.records) : ∃ r' ∈ storage.records, r.id = r'.id ∧
      r.ownerSubject = r'.ownerSubject ∧ r.conversationId = r'.conversationId ∧
      r.expiresAt = r'.expiresAt := by
  obtain ⟨r', hr', rfl⟩ := List.mem_map.1 h
  exact ⟨r', hr', Storage.cleaned_id, Storage.cleaned_ownerSubject, Storage.cleaned_conversationId,
    Storage.cleaned_expiresAt⟩

theorem Progress.staging {storage : Storage}
    (h : Progress p env ownerSubject conversationId s₀ created s)
    (hs : Storage.Staging env s.storage storage) :
    Progress p env ownerSubject conversationId s₀ created { s with storage } :=
  h.goOn (Storage.extends_staging hs) (fun _ hr => mem_cleanupExpired (hs.records ▸ hr)) hs.instant

/-- A created resource is added. -/
theorem Progress.add {storage : Storage} {record : AttachmentRecord}
    (h : Progress p env ownerSubject conversationId s₀ created s)
    (howner : isBlank ownerSubject = false)
    (hs : Storage.Staged p env artifact.fileName artifact.mediaType artifact.content
      (access ownerSubject conversationId) s.storage storage record)
    (hok : Stageable p ownerSubject artifact) :
    Progress p env ownerSubject conversationId s₀
      (created ++ [stagedResource p s.storage.issued artifact]) { s with storage } := by
  have hid : record.id = s.storage.issued := congrArg AttachmentRef.attachmentId hs.reference
  have hgrown : Storage.Extends p s.storage.issued s.storage storage := Storage.extends_staged hs
  have hmem : ∀ {r}, r ∈ storage.records → r ∈ s.storage.cleanupExpired.records ∨ r = record := by
    intro r hr
    rw [hs.records] at hr
    rcases List.mem_append.1 hr with hr | hr
    · exact Or.inl hr
    · exact Or.inr (List.mem_singleton.1 hr)
  have hids : (created ++ [stagedResource p s.storage.issued artifact]).map
      TaskResultResource.resourceId =
      created.map TaskResultResource.resourceId ++ [s.storage.issued] := by
    rw [List.map_append]
    rfl
  refine { manifests := h.manifests
           grown := h.grown.trans (hgrown.mono h.grown.issued)
           numbered := hgrown.numbered h.numbered
           fresh := fun id hid' => ?_
           owner := fun _ => howner
           owned := fun r hr => ?_
           checked := fun r hr => ?_
           bounded := fun r hr => ?_
           kept := fun r hr hname => ?_
           instant := fun hzero r hr hid' => ?_ }
  · rw [hids] at hid'
    rcases List.mem_append.1 hid' with hid' | hid'
    · exact h.fresh id hid'
    · rw [List.mem_singleton.1 hid']
      exact h.grown.issued
  · rw [hids]
    rcases hmem hr with hr | rfl
    · obtain ⟨r', hr', he, hsubject, hconversation, -⟩ := mem_cleanupExpired hr
      rw [he, hsubject, hconversation]
      exact (h.owned r' hr').imp_right fun h => ⟨List.mem_append_left _ h.1, h.2⟩
    · right
      rw [hid]
      exact ⟨List.mem_append_right _ List.mem_cons_self, hs.subject, hs.conversation⟩
  · rcases List.mem_append.1 hr with hr | hr
    · exact h.checked r hr
    · rw [List.mem_singleton.1 hr]
      exact checked_stagedResource _ hok
  · rcases List.mem_append.1 hr with hr | hr
    · exact lt_of_lt_of_le (h.bounded r hr) hgrown.issued
    · rw [List.mem_singleton.1 hr]
      show s.storage.issued < storage.issued
      rw [hs.issued]
      exact Nat.lt_succ_self _
  · rcases List.mem_append.1 hr with hr | hr
    · obtain ⟨record', hkept⟩ := h.kept r hr hname
      obtain ⟨record'', hkept', -⟩ := hgrown.kept (h.bounded r hr) hkept
      exact ⟨record'', hkept'⟩
    · obtain rfl := List.mem_singleton.1 hr
      exact ⟨record, Storage.kept_staged hs h.numbered hname⟩
  · show storage.now < _
    rw [hs.instant hzero]
    rw [hids] at hid'
    rcases hmem hr with hr | rfl
    · obtain ⟨r', hr', he, -, -, hexpires⟩ := mem_cleanupExpired hr
      rw [hexpires]
      apply h.instant hzero r' hr'
      rcases List.mem_append.1 hid' with hid' | hid'
      · exact he ▸ hid'
      · have hlt := h.numbered r' hr'
        rw [← he, List.mem_singleton.1 hid'] at hlt
        exact absurd hlt (Nat.lt_irrefl _)
    · exact hs.expires

theorem onStorage_spec {α : Type} {m : EStateM StoreException Storage α} {Q : α → Storage → Prop}
    {E : Storage → Prop} (h : Triple (· = s.storage) m Q E) :
    Triple (· = s) (onStorage m) (fun a t => ∃ storage, Q a storage ∧ t = { s with storage })
      (fun t => ∃ storage, E storage ∧ t = { s with storage }) := by
  intro s' hs'
  subst hs'
  obtain ⟨hok, herror⟩ := h _ rfl
  unfold onStorage
  cases hm : m s'.storage with
  | ok a storage =>
    refine ⟨fun b t ht => ?_, fun e t ht => by cases ht⟩
    cases ht
    exact ⟨storage, hok a storage hm, rfl⟩
  | error e storage =>
    refine ⟨fun b t ht => (by cases ht), fun e' t ht => ?_⟩
    cases ht
    exact ⟨storage, herror e storage hm, rfl⟩

/-- **The staging of one file of a result.** -/
theorem stageArtifact_spec (h : Progress p env ownerSubject conversationId s₀ created s)
    (hconversation : isBlank conversationId = false) :
    Triple (· = s) (stageArtifact p env ownerSubject conversationId artifact)
      (fun resource t => Stageable p ownerSubject artifact ∧
        resource = stagedResource p s.storage.issued artifact ∧
        Progress p env ownerSubject conversationId s₀ (created ++ [resource]) t)
      (fun t => Progress p env ownerSubject conversationId s₀ created t ∧
        (Stageable p ownerSubject artifact → ∃ n, env.fails n = true)) := by
  refine Triple.bind (R := fun _ t => t = s)
    (Triple.check (fun _ _ h => h) fun t hcontent ht => ?_) fun _ => ?_
  · subst ht
    exact ⟨h, fun hok => absurd hok.2.content hcontent⟩
  cases howner : isBlank ownerSubject with
  | true =>
    obtain ⟨e, he⟩ := make_error conversationId howner
    rw [he]
    refine Triple.bind (Triple.throw fun t ht => ?_) (R := fun _ _ => False)
      fun _ t ht => ht.elim
    subst ht
    refine ⟨h, fun hok => ?_⟩
    rw [hok.1] at howner
    cases howner
  | false =>
    rw [make_ok howner hconversation]
    have hsubject : isBlank (access ownerSubject conversationId).subject = false :=
      isBlank_strip howner
    refine Triple.bind (R := fun c t => t = s ∧ c = access ownerSubject conversationId)
      (Triple.pure fun t ht => ⟨ht, rfl⟩) fun c => Triple.fact fun hc => ?_
    subst hc
    refine Triple.bind ((onStorage_spec (Storage.stageAttachment_spec hsubject)).imp
      (fun _ h => h) (fun _ _ h => h) fun t ht => ?_) fun reference => ?_
    · obtain ⟨storage, ⟨hstaging, hfault⟩, rfl⟩ := ht
      exact ⟨h.staging hstaging, fun hok => hfault hok.2⟩
    · refine Triple.lift (fun resource t hr ht => ?_) fun e t he ht => ?_
      · obtain ⟨storage, ⟨hok, rfl, record, hstaged⟩, rfl⟩ := ht
        have hstageable : Stageable p ownerSubject artifact := ⟨howner, hok⟩
        have hchecked := checked_stagedResource s.storage.issued hstageable
        have hresource : resource = stagedResource p s.storage.issued artifact :=
          (Except.ok.inj (hchecked.symm.trans hr)).symm
        subst hresource
        exact ⟨hstageable, rfl, h.add howner hstaged hstageable⟩
      · obtain ⟨storage, ⟨hok, rfl, record, hstaged⟩, rfl⟩ := ht
        have hstageable : Stageable p ownerSubject artifact := ⟨howner, hok⟩
        have hchecked := checked_stagedResource s.storage.issued hstageable
        rw [stagedResource] at hchecked
        simp only [Storage.stagedRef] at he
        rw [hchecked] at he
        cases he

/-! ## What is left of a save that raises -/

/-- Nothing that the save has created is on record. -/
abbrev Clean (p : Platform) (ownerSubject conversationId : String) (s₀ t : ResultStore) : Prop :=
  Owned p ownerSubject conversationId s₀ [] t

theorem Owned.discard {id : UUID} {ids : List UUID}
    (h : Owned p ownerSubject conversationId s₀ (id :: ids) s) :
    Owned p ownerSubject conversationId s₀ ids { s with
      storage := s.storage.discard id (access ownerSubject conversationId) } := by
  have hgrown : Storage.Extends p s₀.storage.issued s.storage
      (s.storage.discard id (access ownerSubject conversationId)) :=
    Storage.extends_discard (h.fresh id List.mem_cons_self)
  refine { manifests := h.manifests
           grown := h.grown.trans hgrown
           numbered := hgrown.numbered h.numbered
           fresh := fun id' hid' => h.fresh id' (List.mem_cons_of_mem _ hid')
           owner := fun _ => h.owner (List.cons_ne_nil _ _)
           owned := fun r hr => ?_ }
  have hcleaned : ∀ {r}, r ∈ s.storage.cleanupExpired.records → r.id < s₀.storage.issued ∨
      (r.id ∈ id :: ids ∧ (access ownerSubject conversationId).subject = r.ownerSubject ∧
        (access ownerSubject conversationId).conversationId = r.conversationId) := by
    intro r hr
    obtain ⟨r', hr', he, hsubject, hconversation, -⟩ := mem_cleanupExpired hr
    rw [he, hsubject, hconversation]
    exact h.owned r' hr'
  -- the created attachment is on record for its owner, or not at all
  have hgone : r ∈ s.storage.cleanupExpired.records ∧ r.id ≠ id := by
    have hr : r ∈ (s.storage.discard id (access ownerSubject conversationId)).records := hr
    unfold Storage.discard at hr
    dsimp only at hr
    split at hr
    · next hnone =>
      refine ⟨hr, fun he => ?_⟩
      unfold Storage.recordForContext at hnone
      split at hnone
      · next hlookup => exact lookup_eq_none_iff.1 hlookup (he ▸ List.mem_map_of_mem hr)
      · next record hlookup =>
        have hid := key_of_lookup hlookup
        have hge := h.fresh id List.mem_cons_self
        rcases hcleaned (mem_of_lookup hlookup) with hlt | ⟨-, hsubject, hconversation⟩
        · rw [hid] at hlt
          exact absurd hlt (Nat.not_lt.2 hge)
        · rw [if_neg (not_not.2 hsubject), if_neg fun hc => hc.2 hconversation] at hnone
          cases hnone
    · obtain ⟨hr, hne⟩ := List.mem_filter.1 hr
      exact ⟨hr, by simpa using hne⟩
  exact (hcleaned hgone.1).imp_right fun hr => ⟨(List.mem_cons.1 hr.1).resolve_left hgone.2, hr.2⟩

theorem discards_spec (hconversation : isBlank conversationId = false) :
    Triple (Owned p ownerSubject conversationId s₀ (created.map TaskResultResource.resourceId))
      (created.forM fun resource => do
        let context ← lift (AttachmentAccessContext.make ownerSubject (some conversationId))
        modify fun s => { s with storage := s.storage.discard resource.resourceId context } :
        ResultM PUnit)
      (fun _ => Clean p ownerSubject conversationId s₀) (fun _ => False) := by
  induction created with
  | nil => exact Triple.pure fun _ h => h
  | cons resource created ih =>
    refine Triple.bind (R := fun _ => Owned p ownerSubject conversationId s₀
      (created.map TaskResultResource.resourceId)) ?_ fun _ => ih
    intro s h
    rw [make_ok (h.owner (List.cons_ne_nil _ _)) hconversation]
    refine ⟨fun u t ht => ?_, fun e t ht => by cases ht⟩
    cases ht
    exact h.discard

/-- **A save that raises leaves nothing it has created.** -/
theorem abort_spec (hconversation : isBlank conversationId = false) {e : StoreException} :
    Triple (Owned p ownerSubject conversationId s₀ (created.map TaskResultResource.resourceId))
      (abort ownerSubject conversationId created e) (fun _ _ => False)
      (Clean p ownerSubject conversationId s₀) := by
  refine Triple.bind ((discards_spec hconversation).imp (fun _ h => h) (fun _ _ h => h)
    fun _ h => h.elim) fun _ => ?_
  cases e with
  | valueError | osError => exact Triple.throw fun _ h => h
  | tenderResultResourceStoreError => exact Triple.throw fun _ h => h

/-! ## What a save returns -/

/-- A save has written the manifest of the resources it returns. -/
structure Saved (p : Platform) (env : Environment) (taskId : UUID)
    (ownerSubject conversationId : String) (s₀ : ResultStore) (resources : List TaskResultResource)
    (t : ResultStore) : Prop where
  progress : Progress p env ownerSubject conversationId s₀ resources
    { t with manifests := s₀.manifests }
  manifests : t.manifests = s₀.manifests ++
    [⟨taskId, ownerSubject, conversationId, resources⟩]

theorem createResources_spec (hconversation : isBlank conversationId = false) :
    Triple (Progress p env ownerSubject conversationId s₀ created)
      (createResources p env taskId ownerSubject conversationId artifacts created)
      (fun resources t => Saved p env taskId ownerSubject conversationId s₀ resources t ∧
        (∀ artifact ∈ artifacts, Stageable p ownerSubject artifact) ∧
        resources.map resourceIdentity =
          created.map resourceIdentity ++ artifacts.map (stagedMetadata p))
      (fun t => Clean p ownerSubject conversationId s₀ t ∧
        ((∀ artifact ∈ artifacts, Stageable p ownerSubject artifact) →
          ∃ n, env.fails n = true)) := by
  induction artifacts generalizing created with
  | nil =>
    refine Triple.handle (R := fun t => Owned p ownerSubject conversationId s₀
        (created.map TaskResultResource.resourceId) t ∧ ∃ n, env.fails n = true) ?_ fun e =>
      Triple.fact fun hfault => (abort_spec hconversation).imp (fun _ h => h)
        (fun _ _ h => h.elim) fun _ h => ⟨h, fun _ => hfault⟩
    have hwrite : Triple (Progress p env ownerSubject conversationId s₀ created)
        (onStorage (Storage.write env))
        (fun _ => Progress p env ownerSubject conversationId s₀ created)
        (fun t => Owned p ownerSubject conversationId s₀
          (created.map TaskResultResource.resourceId) t ∧ ∃ n, env.fails n = true) := by
      intro s h
      have hwritten : Triple (· = s.storage) (Storage.write env)
          (fun _ storage => storage = { s.storage with
            writes := s.storage.writes + 1
            now := s.storage.now + env.elapses s.storage.writes })
          (fun storage => storage = { s.storage with
            writes := s.storage.writes + 1
            now := s.storage.now + env.elapses s.storage.writes } ∧ ∃ n, env.fails n = true) :=
        Storage.write_spec fun _ hs => by rw [hs]
      have hspec := onStorage_spec hwritten
      refine (hspec.imp (fun _ h => h) (fun _ t ht => ?_) fun t ht => ?_) s rfl
      · obtain ⟨storage, rfl, rfl⟩ := ht
        exact h.write
      · obtain ⟨storage, ⟨rfl, hfault⟩, rfl⟩ := ht
        exact ⟨h.write.toOwned, hfault⟩
    refine Triple.bind hwrite fun _ => ?_
    refine Triple.bind (R := fun _ t => Saved p env taskId ownerSubject conversationId s₀ created t)
      (Triple.modify fun t h => ?_) fun _ => Triple.pure fun t h =>
        ⟨h, fun a ha => (by cases ha), ?_⟩
    · refine ⟨?_, congrArg (· ++ _) h.manifests⟩
      have hsame : { t with manifests := s₀.manifests } = t := by rw [← h.manifests]
      show Progress p env ownerSubject conversationId s₀ created { t with manifests := s₀.manifests }
      rw [hsame]
      exact h
    · rw [List.map_nil, List.append_nil]
  | cons artifact artifacts ih =>
    refine Triple.bind (R := fun created' t =>
        Progress p env ownerSubject conversationId s₀ created' t ∧
        (Stageable p ownerSubject artifact ∧
          created'.map resourceIdentity = created.map resourceIdentity ++ [stagedMetadata p artifact]))
      ?_ fun created' => Triple.fact fun ⟨hok, hidentity⟩ => ?_
    · refine Triple.handle (R := fun t => Owned p ownerSubject conversationId s₀
          (created.map TaskResultResource.resourceId) t ∧
          (Stageable p ownerSubject artifact → ∃ n, env.fails n = true)) ?_ fun e =>
        Triple.fact fun hfault => (abort_spec hconversation).imp (fun _ h => h)
          (fun _ _ h => h.elim)
          fun _ h => ⟨h, fun hall => hfault (hall artifact List.mem_cons_self)⟩
      intro s h
      refine (Triple.bind ((stageArtifact_spec h hconversation).imp (fun _ h => h)
        (fun _ _ h => h) fun t ht => ⟨ht.1.toOwned, ht.2⟩) fun resource =>
        Triple.pure fun t ht => ?_) s rfl
      obtain ⟨hok, rfl, hprogress⟩ := ht
      refine ⟨hprogress, hok, ?_⟩
      rw [List.map_append]
      rfl
    · refine ih.imp (fun _ h => h) (fun resources t h => ⟨h.1, fun a ha => ?_, ?_⟩)
        fun t h => ⟨h.1, fun hall => h.2 fun a ha => hall a (List.mem_cons_of_mem _ ha)⟩
      · rcases List.mem_cons.1 ha with rfl | ha
        · exact hok
        · exact h.2.1 a ha
      · rw [h.2.2, hidentity, List.append_assoc]
        rfl

theorem owned_start (hnumbered : s.storage.Numbered) : Clean p ownerSubject conversationId s s :=
  { manifests := rfl
    grown := Storage.Extends.refl
    numbered := hnumbered
    fresh := fun _ hid => by cases hid
    owner := fun hne => absurd rfl hne
    owned := fun r hr => Or.inl (hnumbered r hr) }

theorem progress_start (hnumbered : s.storage.Numbered) :
    Progress p env ownerSubject conversationId s [] s :=
  { owned_start hnumbered with
    checked := fun _ hr => by cases hr
    bounded := fun _ hr => by cases hr
    kept := fun _ hr => by cases hr
    instant := fun _ _ _ hid => by cases hid }

/-- **A save of a task without a manifest.** -/
theorem save_new (p : Platform) (env : Environment) (ownerSubject conversationId : String)
    (artifacts : List GeneratedTenderArtifact) (hnumbered : s.storage.Numbered)
    (hnone : lookup ResourceManifest.taskId taskId s.manifests = none) :
    Triple (· = s) (saveResources p env taskId ownerSubject conversationId artifacts)
      (fun resources t => Saved p env taskId ownerSubject conversationId s resources t ∧
        (isBlank conversationId = false ∧
          ∀ artifact ∈ artifacts, Stageable p ownerSubject artifact) ∧
        resources.map resourceIdentity = artifacts.map (stagedMetadata p))
      (fun t => Clean p ownerSubject conversationId s t ∧
        (isBlank conversationId = false →
          (∀ artifact ∈ artifacts, Stageable p ownerSubject artifact) →
            ∃ n, env.fails n = true)) := by
  refine Triple.bind (R := fun _ t => t = s ∧ isBlank conversationId = false)
    (Triple.check (fun _ hp h => ⟨h, hp⟩) fun t hblank h => ?_) fun _ => ?_
  · subst h
    exact ⟨owned_start hnumbered, fun hp => absurd hp hblank⟩
  refine Triple.fact fun hconversation => ?_
  refine Triple.bind (R := fun a t => t = s ∧ a = s)
    (Triple.get.imp (fun _ h => h) (fun a t h => ⟨h.2, h.1.trans h.2⟩) fun _ h => h) fun a =>
      Triple.fact fun ha => ?_
  subst ha
  rw [hnone]
  refine (createResources_spec hconversation).imp (fun t ht => ?_)
    (fun resources t h => ⟨h.1, ⟨hconversation, h.2.1⟩, h.2.2⟩) fun t h => ⟨h.1, fun _ => h.2⟩
  subst ht
  exact progress_start hnumbered

/-! ## Later steps -/

/-- The store has gone on, and has kept every attachment and every manifest. -/
structure Later (p : Platform) (s t : ResultStore) : Prop where
  grown : Storage.Extends p s.storage.issued s.storage t.storage
  manifest : ∀ taskId data, lookup ResourceManifest.taskId taskId s.manifests = some data →
    lookup ResourceManifest.taskId taskId t.manifests = some data

theorem Later.refl : Later p s s := ⟨Storage.Extends.refl, fun _ _ h => h⟩

theorem extends_readAll {n : UUID} {context : AttachmentAccessContext} {storage : Storage} :
    Storage.Extends p n storage (readAll p context resources storage).2 := by
  induction resources generalizing storage with
  | nil => exact Storage.Extends.refl
  | cons resource resources ih =>
    unfold readAll
    dsimp only
    split
    · exact Storage.extends_read.trans ih
    · exact Storage.extends_read

theorem repeat_later {data : ResourceManifest} :
    Triple (· = s) (repeatResources p ownerSubject conversationId artifacts data)
      (fun _ => Later p s) (Later p s) := by
  have hkeep : ∀ t, t = s → Later p s t := fun t ht => ht ▸ Later.refl
  refine Triple.bind (R := fun _ => (· = s)) (Triple.check (fun _ _ h => h) fun t _ h => hkeep t h)
    fun _ => ?_
  refine Triple.bind (R := fun _ => (· = s)) (Triple.lift (fun _ _ _ h => h) fun _ t _ h => hkeep t h)
    fun existing => ?_
  refine Triple.bind (R := fun _ => (· = s)) (Triple.lift (fun _ _ _ h => h) fun _ t _ h => hkeep t h)
    fun expected => ?_
  refine Triple.bind (R := fun _ => (· = s)) (Triple.check (fun _ _ h => h) fun t _ h => hkeep t h)
    fun _ => ?_
  refine Triple.bind (R := fun _ => Later p s) (Triple.handle (R := Later p s) ?_ fun e =>
    Triple.throw fun _ h => h) fun _ => Triple.pure fun _ h => h
  refine Triple.bind (R := fun _ => (· = s)) (Triple.lift (fun _ _ _ h => h) fun _ t _ h => hkeep t h)
    fun context => ?_
  refine Triple.bind Triple.get fun s' => ?_
  refine Triple.bind (R := fun _ => Later p s) (Triple.set fun t h => ?_) fun _ =>
    Triple.check (fun _ _ h => h) fun _ _ h => h
  obtain ⟨rfl, rfl⟩ := h
  exact ⟨extends_readAll, fun _ _ h => h⟩

theorem save_later (hnumbered : s.storage.Numbered) :
    Triple (· = s) (saveResources p env taskId ownerSubject conversationId artifacts)
      (fun _ => Later p s) (Later p s) := by
  cases hlookup : lookup ResourceManifest.taskId taskId s.manifests with
  | none =>
    refine (save_new p env ownerSubject conversationId artifacts hnumbered hlookup).imp (fun _ h => h) (fun resources t h => ?_) fun t h => ?_
    · refine ⟨h.1.progress.grown, fun task data hdata => ?_⟩
      rw [h.1.manifests]
      unfold lookup at hdata ⊢
      rw [List.find?_append, hdata]
      rfl
    · exact ⟨h.1.grown, fun task data hdata => h.1.manifests ▸ hdata⟩
  | some data =>
    refine Triple.bind (R := fun _ => (· = s))
      (Triple.check (fun _ _ h => h) fun t _ h => h ▸ Later.refl) fun _ => ?_
    refine Triple.bind (R := fun a t => t = s ∧ a = s)
      (Triple.get.imp (fun _ h => h) (fun a t h => ⟨h.2, h.1.trans h.2⟩) fun _ h => h) fun a =>
        Triple.fact fun ha => ?_
    subst ha
    rw [hlookup]
    exact repeat_later

theorem list_later :
    Triple (· = s) (listResources p taskId ownerSubject conversationId)
      (fun _ => Later p s) (Later p s) := by
  have hkeep : ∀ t, t = s → Later p s t := fun t ht => ht ▸ Later.refl
  refine Triple.bind (R := fun a t => t = s ∧ a = s)
    (Triple.get.imp (fun _ h => h) (fun a t h => ⟨h.2, h.1.trans h.2⟩) fun _ h => h) fun a =>
      Triple.fact fun ha => ?_
  subst ha
  split
  · exact Triple.pure hkeep
  · split
    · exact Triple.pure hkeep
    · split
      · exact Triple.pure hkeep
      · refine Triple.bind (R := fun _ => (· = a))
          (Triple.lift (fun _ _ _ h => h) fun _ t _ h => hkeep t h) fun context => ?_
        refine Triple.bind (R := fun _ => Later p a) (Triple.set fun t h => ?_) fun _ =>
          Triple.pure fun _ h => h
        exact ⟨extends_readAll, fun _ _ h => h⟩

theorem stage_later {fileName mediaType subject : String} {content : Bytes}
    {conversation : Option String} :
    Triple (· = s) (Event.run p env (.stage fileName mediaType content subject conversation))
      (fun _ => Later p s) (Later p s) := by
  refine Triple.bind (R := fun context t => t = s ∧ isBlank context.subject = false)
    (Triple.lift (fun context t hcontext h => ⟨h, ?_⟩) fun _ t _ h => h ▸ Later.refl) fun context =>
      Triple.fact fun hsubject => ?_
  · cases conversation with
    | none =>
      simp only [AttachmentAccessContext.make, except_bind_ok, exists_unit, require_ok] at hcontext
      obtain ⟨hblank, hcontext⟩ := hcontext
      rw [← Except.ok.inj hcontext]
      exact isBlank_strip hblank
    | some conversation =>
      simp only [AttachmentAccessContext.make, except_bind_ok, exists_unit, require_ok] at hcontext
      obtain ⟨hblank, -, hcontext⟩ := hcontext
      rw [← Except.ok.inj hcontext]
      exact isBlank_strip hblank
  · refine Triple.bind ((onStorage_spec (Storage.stageAttachment_spec hsubject)).imp
      (fun _ h => h) (fun _ _ h => h) fun t ht => ?_) fun reference => Triple.pure fun t ht => ?_
    · obtain ⟨storage, ⟨hstaging, -⟩, rfl⟩ := ht
      exact ⟨Storage.extends_staging hstaging, fun _ _ h => h⟩
    · obtain ⟨storage, ⟨-, -, record, hstaged⟩, rfl⟩ := ht
      exact ⟨Storage.extends_staged hstaged, fun _ _ h => h⟩

/-- **Every step keeps what is on record.** -/
theorem later_of_moves {e : Event} (hnumbered : s.storage.Numbered) (hs : Moves p env s e t) :
    Later p s t := by
  have hrun : Triple (· = s) (e.run p env) (fun _ => Later p s) (Later p s) := by
    cases e with
    | stage fileName mediaType content subject conversation => exact stage_later
    | read id context =>
      refine Triple.modify fun t ht => ?_
      subst ht
      exact ⟨Storage.extends_read, fun _ _ h => h⟩
    | save task owner conversation artifacts =>
      exact Triple.bind (save_later hnumbered) fun _ => Triple.pure fun _ h => h
    | list task owner conversation => exact Triple.bind list_later fun _ => Triple.pure fun _ h => h
    | wait microseconds =>
      refine Triple.modify fun t ht => ?_
      subst ht
      refine ⟨Storage.extends_of_records ?_ (Nat.le_refl _) rfl, fun _ _ h => h⟩
      show t.storage.now ≤ t.storage.now + (microseconds : Int)
      omega
  obtain ⟨hok, herror⟩ := hrun s rfl
  rcases hs with hs | ⟨x, hs⟩
  · exact hok () t hs
  · exact herror x t hs

theorem numbered_of_reachable (h : Reachable (· = {}) (Moves p env) s) : s.storage.Numbered := by
  refine h.invariant (P := fun s => s.storage.Numbered) (fun hinit => ?_)
    fun hnumbered hs => (later_of_moves hnumbered hs).grown.numbered hnumbered
  rw [hinit]
  intro r hr
  cases hr

/-! ## What is bound -/

/-- The manifest of a task is on record, with everything it lists. -/
structure Bound (p : Platform) (taskId : UUID) (ownerSubject conversationId : String)
    (resources : List TaskResultResource) (s : ResultStore) : Prop where
  manifest : lookup ResourceManifest.taskId taskId s.manifests =
    some ⟨taskId, ownerSubject, conversationId, resources⟩
  numbered : s.storage.Numbered
  bounded : ∀ r ∈ resources, r.resourceId < s.storage.issued
  kept : ∀ r ∈ resources,
    ∃ record, Storage.Kept p s.storage r.reference (access ownerSubject conversationId) record

theorem Bound.later (h : Bound p taskId ownerSubject conversationId resources s)
    (hs : Later p s t) : Bound p taskId ownerSubject conversationId resources t := by
  refine ⟨hs.manifest _ _ h.manifest, hs.grown.numbered h.numbered,
    fun r hr => lt_of_lt_of_le (h.bounded r hr) hs.grown.issued, fun r hr => ?_⟩
  obtain ⟨record, hkept⟩ := h.kept r hr
  obtain ⟨record', hkept', -⟩ := hs.grown.kept (h.bounded r hr) hkept
  exact ⟨record', hkept'⟩

/-- An artifact that is stored as it is. -/
structure Plain (p : Platform) (artifact : GeneratedTenderArtifact) : Prop where
  fileName : baseName artifact.fileName = artifact.fileName
  mediaType : p.lower (strip artifact.mediaType) = artifact.mediaType
  notPart : artifact.fileName.endsWith ".part" = false

theorem metadata_of_plain (h : Plain p artifact) : stagedMetadata p artifact = metadata p artifact := by
  rw [stagedMetadata, metadata, h.fileName, h.mediaType]

theorem Saved.bound (h : Saved p env taskId ownerSubject conversationId s resources t)
    (hnone : lookup ResourceManifest.taskId taskId s.manifests = none)
    (hidentity : resources.map resourceIdentity = artifacts.map (stagedMetadata p))
    (hplain : ∀ artifact ∈ artifacts, Plain p artifact) :
    Bound p taskId ownerSubject conversationId resources t := by
  refine ⟨?_, h.progress.numbered, h.progress.bounded, fun r hr => h.progress.kept r hr ?_⟩
  · unfold lookup at hnone ⊢
    rw [h.manifests, List.find?_append, hnone]
    simp
  · have hmem : resourceIdentity r ∈ artifacts.map (stagedMetadata p) :=
      hidentity ▸ List.mem_map_of_mem hr
    obtain ⟨artifact, hartifact, he⟩ := List.mem_map.1 hmem
    have hname : baseName artifact.fileName = r.fileName := congrArg Prod.fst he
    rw [← hname, (hplain artifact hartifact).fileName]
    exact (hplain artifact hartifact).notPart

/-- **All resources that are bound and have not expired are read.** -/
theorem readAll_bound {storage : Storage} {context : AttachmentAccessContext}
    (hkept : ∀ r ∈ resources, ∃ record, Storage.Kept p storage r.reference context record ∧
      storage.now < record.expiresAt) :
    (readAll p context resources storage).1 = true := by
  induction resources generalizing storage with
  | nil => rfl
  | cons resource resources ih =>
    obtain ⟨record, hrecord, hfresh⟩ := hkept resource List.mem_cons_self
    obtain ⟨content, hread⟩ := Storage.read_kept hrecord hfresh
    have hread' : storage.read p resource.resourceId context = _ := hread
    unfold readAll
    rw [hread']
    have hstored : storedAs resource
        { status := .available, attachment := some resource.reference, content := some content } =
          true := by simp [storedAs, TaskResultResource.reference]
    dsimp only
    rw [if_pos hstored]
    refine ih fun r hr => ?_
    obtain ⟨record', hrecord', hfresh'⟩ := hkept r (List.mem_cons_of_mem _ hr)
    exact ⟨_, Storage.kept_cleanupExpired hrecord', by rwa [Storage.cleaned_expiresAt]⟩

theorem Bound.read (h : Bound p taskId ownerSubject conversationId resources s)
    (hfresh : Unexpired resources s) :
    (readAll p (access ownerSubject conversationId) resources s.storage).1 = true := by
  refine readAll_bound fun r hr => ?_
  obtain ⟨record, hkept⟩ := h.kept r hr
  exact ⟨record, hkept, hfresh r hr record hkept.found⟩

/-- A manifest that was written is read as it was. -/
theorem readManifest_ok {data : ResourceManifest} (hne : data.resources ≠ [])
    (hchecked : ∀ r ∈ data.resources, r.checked = .ok r) :
    readManifestResources data = .ok data.resources := by
  have heach : mapEach TaskResultResource.checked data.resources = .ok data.resources := by
    have h := mapEach_eq_map (g := id) hchecked
    rwa [List.map_id] at h
  simp only [readManifestResources, except_bind_ok, exists_unit, require_ok]
  exact ⟨hne, heach⟩

/-- The metadata expected of artifacts is their own. -/
theorem expected_identity {expected : List TaskResultResource}
    (h : expectedResourceMetadata p artifacts = .ok expected) :
    expected.map resourceIdentity = artifacts.map (metadata p) := by
  have hall := mapEach_ok.1 h
  induction hall with
  | nil => rfl
  | cons hhead _ ih =>
    simp only [TaskResultResource.checked, except_bind_ok, exists_unit, require_ok] at hhead
    obtain ⟨-, -, -, -, -, hhead⟩ := hhead
    have ih := ih (mapEach_ok.2 (by assumption))
    rw [List.map_cons, List.map_cons, ih, ← Except.ok.inj hhead]
    rfl

theorem expected_ok (hplain : ∀ artifact ∈ artifacts, Plain p artifact)
    (hok : ∀ artifact ∈ artifacts, Stageable p ownerSubject artifact) :
    ∃ expected, expectedResourceMetadata p artifacts = .ok expected := by
  refine ⟨_, mapEach_eq_map (g := fun artifact => ⟨0, artifact.fileName, artifact.mediaType,
    artifact.content.length, p.sha256 artifact.content⟩) fun artifact hmem => ?_⟩
  have hp := hplain artifact hmem
  obtain ⟨-, hs⟩ := hok artifact hmem
  have hname := hs.name
  have hmedia := hs.media
  rw [hp.fileName] at hname
  rw [hp.mediaType] at hmedia
  simp only [TaskResultResource.checked, except_bind_ok, exists_unit, require_ok]
  exact ⟨hs.content, hname, hmedia, List.length_pos_iff.2 hs.content, p.hexdigest _, trivial⟩

/-! ## The answers on a bound task -/

theorem get_run : (get : ResultM ResultStore) s = .ok s s := rfl

theorem check_run {q : Prop} [Decidable q] {e : StoreException} (h : q) :
    (check q e : ResultM Unit) s = .ok () s := by
  rw [check, if_pos h]
  rfl

theorem check_raise {q : Prop} [Decidable q] {e : StoreException} (h : ¬q) :
    (check q e : ResultM Unit) s = .error e s := by
  rw [check, if_neg h]
  rfl

theorem lift_run {α : Type} {x : Except StoreException α} {a : α} (h : x = .ok a) :
    (lift x : ResultM α) s = .ok a s := by
  rw [h]
  rfl

theorem list_bound (h : Bound p taskId ownerSubject conversationId resources s)
    (howner : isBlank ownerSubject = false) (hconversation : isBlank conversationId = false)
    (hne : resources ≠ []) (hchecked : ∀ r ∈ resources, r.checked = .ok r)
    (hfresh : Unexpired resources s) :
    ∃ t, listResources p taskId ownerSubject conversationId s = .ok (some resources) t := by
  let storage := (readAll p (access ownerSubject conversationId) resources s.storage).2
  refine ⟨{ s with storage }, ?_⟩
  unfold listResources
  rw [bind_of_ok get_run, h.manifest]
  dsimp only
  rw [if_neg (by simp), readManifest_ok hne hchecked]
  dsimp only
  rw [bind_of_ok (lift_run (make_ok howner hconversation))]
  have hstored := h.read hfresh
  show EStateM.Result.ok
    (if (readAll p (access ownerSubject conversationId) resources s.storage).1 = true then
      some resources else none) _ = _
  rw [if_pos hstored]

theorem repeat_bound {data : ResourceManifest}
    (hdata : data = ⟨taskId, ownerSubject, conversationId, resources⟩)
    (h : Bound p taskId ownerSubject conversationId resources s)
    (howner : isBlank ownerSubject = false) (hconversation : isBlank conversationId = false)
    (hne : resources ≠ []) (hchecked : ∀ r ∈ resources, r.checked = .ok r)
    (hfresh : Unexpired resources s) {expected : List TaskResultResource}
    (hexpected : expectedResourceMetadata p artifacts = .ok expected)
    (hidentity : resources.map resourceIdentity = expected.map resourceIdentity) :
    ∃ t, repeatResources p ownerSubject conversationId artifacts data s = .ok resources t ∧
      t.manifests = s.manifests := by
  subst hdata
  have hread : (readManifestResources ⟨taskId, ownerSubject, conversationId, resources⟩).mapError
      (fun _ => invalidManifest) = .ok resources := by
    rw [readManifest_ok hne hchecked]
    rfl
  have hexpected' : (expectedResourceMetadata p artifacts).mapError (fun _ => invalidManifest) =
      .ok expected := by
    rw [hexpected]
    rfl
  let t : ResultStore := { s with
    storage := (readAll p (access ownerSubject conversationId) resources s.storage).2 }
  have hvalidate : validateStoredResources p resources ownerSubject conversationId s = .ok () t := by
    unfold validateStoredResources
    rw [bind_of_ok (lift_run (make_ok howner hconversation)), bind_of_ok get_run]
    have hstored := h.read hfresh
    show (check ((readAll p (access ownerSubject conversationId) resources s.storage).1 = true) _ :
      ResultM Unit) t = _
    exact check_run hstored
  have hcatch : (tryCatch (validateStoredResources p resources ownerSubject conversationId)
      (fun _ => throw (.tenderResultResourceStoreError "Tender 结果资源附件不可用。")) :
      ResultM Unit) s = .ok () t := tryCatch_ok.2 (Or.inl hvalidate)
  refine ⟨t, ?_, rfl⟩
  unfold repeatResources
  rw [bind_of_ok (check_run ⟨rfl, rfl⟩), bind_of_ok (lift_run hread),
    bind_of_ok (lift_run hexpected'), bind_of_ok (check_run hidentity), bind_of_ok hcatch]
  rfl

/-- Another owner, another conversation or other metadata: the store is left as it is. -/
theorem repeat_differs {data : ResourceManifest} {owner' conversation' : String}
    {artifacts' : List GeneratedTenderArtifact}
    (hdata : data = ⟨taskId, ownerSubject, conversationId, resources⟩)
    (hne : resources ≠ []) (hchecked : ∀ r ∈ resources, r.checked = .ok r)
    (hdiffers : (owner', conversation', artifacts'.map (metadata p)) ≠
      (ownerSubject, conversationId, resources.map resourceIdentity)) :
    ∃ e, repeatResources p owner' conversation' artifacts' data s = .error e s := by
  subst hdata
  unfold repeatResources
  by_cases hkeys : ownerSubject = owner' ∧ conversationId = conversation'
  · have hread : (readManifestResources ⟨taskId, ownerSubject, conversationId, resources⟩).mapError
        (fun _ => invalidManifest) = .ok resources := by
      rw [readManifest_ok hne hchecked]
      rfl
    rw [bind_of_ok (check_run hkeys), bind_of_ok (lift_run hread)]
    cases hexpected : expectedResourceMetadata p artifacts' with
    | error e => exact ⟨invalidManifest, rfl⟩
    | ok expected =>
      refine ⟨.tenderResultResourceStoreError "Tender 结果资源元数据不一致。", ?_⟩
      have hmap : (Except.ok expected : Except StoreException (List TaskResultResource)).mapError
          (fun _ => invalidManifest) = .ok expected := rfl
      rw [bind_of_ok (lift_run hmap)]
      refine bind_of_error (check_raise fun he => hdiffers ?_)
      rw [← hkeys.1, ← hkeys.2, he, expected_identity hexpected]
  · exact ⟨_, bind_of_error (check_raise hkeys)⟩

theorem save_known {data : ResourceManifest}
    (hdata : lookup ResourceManifest.taskId taskId s.manifests = some data)
    (hconversation : isBlank conversationId = false) :
    saveResources p env taskId ownerSubject conversationId artifacts s =
      repeatResources p ownerSubject conversationId artifacts data s := by
  unfold saveResources
  rw [bind_of_ok (check_run hconversation), bind_of_ok get_run, hdata]

/-! ## When a save binds its resources -/

/-- A save that is refused, whatever the file system does. -/
def Refused (p : Platform) (ownerSubject conversationId : String)
    (artifacts : List GeneratedTenderArtifact) : Prop :=
  isBlank conversationId = true ∨ ∃ artifact ∈ artifacts, ¬Stageable p ownerSubject artifact

theorem binds_of_plain (h : Refused p ownerSubject conversationId artifacts ∨
    artifacts ≠ [] ∧ ∀ artifact ∈ artifacts, Plain p artifact) :
    BindsResources p taskId ownerSubject conversationId artifacts := by
  intro env s hreach hnone
  obtain ⟨hok, herror⟩ := save_new p env ownerSubject conversationId artifacts
    (numbered_of_reachable hreach) hnone s rfl
  refine ⟨fun e t ht => ?_, fun resources t ht events u hrun hfresh => ?_⟩
  · obtain ⟨hclean, -⟩ := herror e t ht
    refine ⟨hclean.manifests ▸ hnone, fun id hid => lookup_eq_none_iff.2 fun hmem => ?_⟩
    obtain ⟨r, hr, rfl⟩ := List.mem_map.1 hmem
    rcases hclean.owned r hr with hlt | ⟨hnil, -⟩
    · exact absurd hlt (Nat.not_lt.2 hid)
    · cases hnil
  · obtain ⟨hsaved, ⟨hconversation, hstageable⟩, hidentity⟩ := hok resources t ht
    have hplain : artifacts ≠ [] ∧ ∀ artifact ∈ artifacts, Plain p artifact := by
      refine h.resolve_left ?_
      rintro (hblank | ⟨artifact, hmem, hnot⟩)
      · rw [hconversation] at hblank
        cases hblank
      · exact hnot (hstageable artifact hmem)
    obtain ⟨hartifacts, hplain⟩ := hplain
    have hmetadata : artifacts.map (stagedMetadata p) = artifacts.map (metadata p) :=
      List.map_congr_left fun a ha => metadata_of_plain (hplain a ha)
    have hne : resources ≠ [] := by
      rintro rfl
      exact hartifacts (List.map_eq_nil_iff.1 hidentity.symm)
    obtain ⟨artifact, hmem⟩ := List.exists_mem_of_ne_nil artifacts hartifacts
    have howner := (hstageable artifact hmem).1
    have hbound : Bound p taskId ownerSubject conversationId resources u :=
      hrun.invariant (fun hb hs => hb.later (later_of_moves hb.numbered hs))
        (hsaved.bound hnone hidentity hplain)
    refine ⟨list_bound hbound howner hconversation hne hsaved.progress.checked hfresh, ?_, ?_⟩
    · obtain ⟨expected, hexpected⟩ := expected_ok hplain hstageable
      obtain ⟨v, hv, hmanifests⟩ := repeat_bound rfl hbound howner hconversation hne
        hsaved.progress.checked hfresh hexpected
        (hidentity.trans (hmetadata.trans (expected_identity hexpected).symm))
      exact ⟨v, (save_known hbound.manifest hconversation).trans hv, hmanifests⟩
    · intro owner' conversation' artifacts' hdiffers
      cases hconversation' : isBlank conversation' with
      | true =>
        refine ⟨_, u, bind_of_error (check_raise fun hnot => ?_), rfl⟩
        rw [hconversation'] at hnot
        cases hnot
      | false =>
        obtain ⟨e, he⟩ := repeat_differs (s := u) rfl hne hsaved.progress.checked
          (hidentity ▸ hmetadata ▸ hdiffers)
        exact ⟨e, u, (save_known hbound.manifest hconversation').trans he, rfl⟩

/-- A resource that is read has a name that is not taken for a file being written. -/
theorem readAll_names {context : AttachmentAccessContext} {storage : Storage}
    (h : (readAll p context resources storage).1 = true) :
    ∀ r ∈ resources, r.fileName.endsWith ".part" = false := by
  induction resources generalizing storage with
  | nil =>
    intro r hr
    cases hr
  | cons resource resources ih =>
    unfold readAll at h
    dsimp only at h
    split at h
    · next hstored =>
      intro r hr
      rcases List.mem_cons.1 hr with rfl | hr
      · unfold storedAs at hstored
        obtain ⟨hstatus, hattachment⟩ := (Bool.and_eq_true _ _).mp hstored
        split at hattachment
        · cases hattachment
        · next attachment hfound =>
          simp only [Bool.and_eq_true, decide_eq_true_eq] at hattachment
          rw [← hattachment.1.1.1]
          exact Storage.read_available (by simpa using hstatus) hfound
      · exact ih h r hr
    · cases h

theorem list_some (h : listResources p taskId ownerSubject conversationId s =
    .ok (some resources) t) :
    ∃ data context, lookup ResourceManifest.taskId taskId s.manifests = some data ∧
      data.resources ≠ [] ∧ (readAll p context resources s.storage).1 = true := by
  unfold listResources at h
  rw [bind_of_ok get_run] at h
  cases hdata : lookup ResourceManifest.taskId taskId s.manifests with
  | none =>
    rw [hdata] at h
    cases h
  | some data =>
    rw [hdata] at h
    dsimp only at h
    by_cases hkeys : data.ownerSubject ≠ ownerSubject ∨ data.conversationId ≠ conversationId
    · rw [if_pos hkeys] at h
      cases h
    · rw [if_neg hkeys] at h
      cases hread : readManifestResources data with
      | error e =>
        rw [hread] at h
        cases h
      | ok read =>
        rw [hread] at h
        obtain ⟨context, u, hcontext, h⟩ := bind_ok.1 h
        obtain ⟨-, hu⟩ := lift_ok.1 hcontext
        subst hu
        have hanswer : (if (readAll p context read u.storage).1 = true then some read else none) =
            some resources := EStateM.Result.ok.inj h |>.1
        simp only [readManifestResources, except_bind_ok, exists_unit, require_ok] at hread
        by_cases hstored : (readAll p context read u.storage).1 = true
        · rw [if_pos hstored] at hanswer
          obtain rfl := Option.some.inj hanswer
          exact ⟨data, context, rfl, hread.1, hstored⟩
        · rw [if_neg hstored] at hanswer
          cases hanswer

theorem repeat_identity {data : ResourceManifest}
    (h : repeatResources p ownerSubject conversationId artifacts data s = .ok resources t) :
    resources.map resourceIdentity = artifacts.map (metadata p) := by
  obtain ⟨_, u₁, -, h⟩ := bind_ok.1 h
  obtain ⟨existing, u₂, -, h⟩ := bind_ok.1 h
  obtain ⟨expected, u₃, hexpected, h⟩ := bind_ok.1 h
  obtain ⟨_, u₄, hcheck, h⟩ := bind_ok.1 h
  obtain ⟨_, u₅, -, h⟩ := bind_ok.1 h
  obtain ⟨rfl, -⟩ := pure_ok.1 h
  obtain ⟨hsame, -⟩ := check_ok.1 hcheck
  obtain ⟨hexpected, -⟩ := lift_ok.1 hexpected
  rw [hsame]
  cases hrun : expectedResourceMetadata p artifacts with
  | error e =>
    rw [hrun] at hexpected
    cases hexpected
  | ok expected' =>
    rw [hrun] at hexpected
    cases hexpected
    exact expected_identity hrun

/-- **Exactly which results have their resources bound.** -/
theorem binds_iff : BindsResources p taskId ownerSubject conversationId artifacts ↔
    Refused p ownerSubject conversationId artifacts ∨
      artifacts ≠ [] ∧ ∀ artifact ∈ artifacts, Plain p artifact := by
  refine ⟨fun h => or_iff_not_imp_left.2 fun hrefused => ?_, binds_of_plain⟩
  obtain ⟨hconversation, hstageable⟩ := not_or.1 hrefused
  have hconversation : isBlank conversationId = false := Bool.eq_false_iff.2 hconversation
  have hstageable : ∀ artifact ∈ artifacts, Stageable p ownerSubject artifact := fun a ha =>
    not_not.1 fun hnot => hstageable ⟨a, ha, hnot⟩
  -- nothing fails, and no time passes
  let env : Environment := ⟨fun _ => false, fun _ => 0⟩
  have hreach : Reachable (· = {}) (Moves p env) {} := Reachable.start rfl
  have hnone : lookup ResourceManifest.taskId taskId ({} : ResultStore).manifests = none := rfl
  obtain ⟨hok, herror⟩ := save_new p env ownerSubject conversationId artifacts
    (numbered_of_reachable hreach) hnone {} rfl
  cases hsave : saveResources p env taskId ownerSubject conversationId artifacts {} with
  | error e t =>
    obtain ⟨n, hn⟩ := (herror e t hsave).2 hconversation hstageable
    cases hn
  | ok resources t =>
    obtain ⟨hsaved, -, hidentity⟩ := hok resources t hsave
    have hfresh : Unexpired resources t := fun r hr record hrecord =>
      hsaved.progress.instant (fun _ => rfl) record (mem_of_lookup hrecord)
        ((key_of_lookup hrecord).symm ▸ List.mem_map_of_mem hr)
    obtain ⟨⟨v, hlist⟩, ⟨v', hagain, -⟩, -⟩ :=
      (h env {} hreach rfl).2 resources t hsave [] t (.nil t) hfresh
    have hmanifest : lookup ResourceManifest.taskId taskId t.manifests =
        some ⟨taskId, ownerSubject, conversationId, resources⟩ := by
      rw [hsaved.manifests]
      simp [lookup]
    obtain ⟨data, context, hdata, hne, hread⟩ := list_some hlist
    obtain rfl := Option.some.inj (hdata.symm.trans hmanifest)
    rw [save_known hmanifest hconversation] at hagain
    have hsame : artifacts.map (stagedMetadata p) = artifacts.map (metadata p) :=
      hidentity.symm.trans (repeat_identity hagain)
    refine ⟨?_, fun artifact hmem => ?_⟩
    · rintro rfl
      exact hne (List.map_eq_nil_iff.1 hidentity)
    · have hplain := List.map_inj_left.1 hsame artifact hmem
      have hname : baseName artifact.fileName = artifact.fileName := congrArg Prod.fst hplain
      have hmedia : p.lower (strip artifact.mediaType) = artifact.mediaType :=
        congrArg (fun i => i.2.1) hplain
      have hstaged : stagedMetadata p artifact ∈ resources.map resourceIdentity :=
        hidentity ▸ List.mem_map_of_mem hmem
      obtain ⟨r, hr, he⟩ := List.mem_map.1 hstaged
      have hr' : r.fileName = baseName artifact.fileName := congrArg Prod.fst he
      refine ⟨hname, hmedia, ?_⟩
      rw [← hname, ← hr']
      exact readAll_names hread r hr

/-! ## A result without files -/

/-- The lower case of ASCII text, and the digest of no bytes. -/
def plainPlatform : Platform where
  lower s := String.ofList (s.toList.map Char.toLower)
  sha256 _ := "e3b0c44298fc1c149afbf4c8996fb92427ae41e4649b934ca495991b7852b855"
  accepts _ := true
  maxSizeBytes := 52428800
  retentionSeconds := 86400
  retention_pos := by decide
  allowedMediaTypes := ["application/pdf"]
  hexdigest _ := by decide

theorem no_artifacts_unbound : ¬ BindsResources plainPlatform 1 "alice" "c1" [] := by
  intro h
  rcases binds_iff.1 h with (hblank | ⟨artifact, hmem, -⟩) | ⟨hne, -⟩
  · exact absurd hblank (by decide)
  · cases hmem
  · exact hne rfl

end GoAgent.Tender
