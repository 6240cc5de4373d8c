import GoAgent.Tasks.Transitions
import GoAgent.Tasks.Replay
import GoAgent.Foundation.Rejection

/-!
# Rejected task commands

A command that raises should leave the task as it was. Most commands do: they check everything
first, and what they check after their writes cannot fail on a task that commands have led to. Four
commands do not. A claim finds out last that the log has its transition, a requeue and a manual
retry check their command id after the writes, and a recovery checks its retry time and its command
id after it has ended the attempt. `Spoils` is the condition under which they raise there.

* `claim_leaves`, `requeueDue_leaves`, … — one command, exactly.
* `leaves_settled` — ending an attempt returns once its checks have passed.
* `rejection_changes_nothing` — all commands, in every run.
-/

namespace GoAgent.Tasks

open GoAgent.Foundation GoAgent.Tasks.Task GoAgent.Tasks.TaskAttempt

variable {t t' t₀ t₁ : Task} {call : Call} {k : Nat} {a a' : TaskAttempt} {u : Unit}

/-! ## The end of a command -/

/-- The log has the transition already. -/
def Task.Logged (t : Task) (transitionId : String) : Prop :=
  ∃ e ∈ t.events, e.transitionId = strip transitionId

/-- A sound task takes a new event. -/
theorem sound_takes {transitionId : String} {ty : TaskEventType} {m : Metadata} {e : TaskEvent}
    (hs : Sound t) (he : t.Takes call transitionId ty m e) :
    Sound { t with events := t.events ++ [e] } := by
  obtain ⟨hfresh, hmake⟩ := he
  obtain ⟨-, -, -, _, -, rfl⟩ := TaskEvent.make_ok.1 hmake
  refine ⟨hs.attemptTask, hs.numbered, ?_, ?_, ?_, hs.active, hs.summary⟩
  · exact List.forall_mem_append.2 ⟨hs.eventTask, by simp [nextEvent]⟩
  · rw [List.map_append, hs.sequenced, List.map_singleton, List.length_append,
      List.length_singleton, List.range'_concat, Nat.mul_comm, Nat.mul_one, Nat.add_comm]
    rfl
  · rw [List.map_append, List.map_singleton, List.nodup_append]
    refine ⟨hs.distinct, by simp, ?_⟩
    intro i hi j hj
    obtain ⟨e', he', rfl⟩ := List.mem_map.1 hi
    rw [List.mem_singleton.1 hj]
    simpa [nextEvent] using hfresh e' he'

theorem takes_of_fresh {transitionId : String} {ty : TaskEventType} {m m' : Metadata}
    (hz : call.now.tzAware = true) (hm : safeMetadata ty m = .ok m')
    (hb : isBlank transitionId = false) (hfresh : ¬t.Logged transitionId) :
    ∃ e, t.Takes call transitionId ty m e := by
  refine ⟨_, ?_, TaskEvent.make_ok.2 ⟨Nat.succ_pos _, ?_, hz, m', hm, rfl⟩⟩
  · intro e he heq
    exact hfresh ⟨e, he, heq⟩
  · simpa [nextEvent] using hb

/-- With a new transition, what follows the last write of a command returns. -/
theorem leaves_of_fresh {β : Type} {f : Unit → TaskM β} {transitionId : String}
    {ty : TaskEventType} {m m' : Metadata} (hs : Sound t₁) (hz : call.now.tzAware = true)
    (hm : safeMetadata ty m = .ok m') (hf : ∀ t, Sound t → ∃ b u, f () t = .ok b u)
    (hb : isBlank transitionId = false) (hfresh : ¬t₁.Logged transitionId) :
    Leaves t₀ (appendEvent call transitionId ty m >>= f) t₁ := by
  obtain ⟨e, he⟩ := takes_of_fresh hz hm hb hfresh
  obtain ⟨b, u, hu⟩ := hf _ (sound_takes hs he)
  exact leaves_of_ok (bind_ok.2 ⟨(), _, appendEvent_ok.2 ⟨hb, e, he, rfl⟩, hu⟩)

/-- It raises exactly if the transition is blank or known. -/
theorem leaves_append {β : Type} {f : Unit → TaskM β} {transitionId : String} {ty : TaskEventType}
    {m m' : Metadata} (hne : t₁ ≠ t₀) (hs : Sound t₁) (hz : call.now.tzAware = true)
    (hm : safeMetadata ty m = .ok m') (hf : ∀ t, Sound t → ∃ b u, f () t = .ok b u) :
    Leaves t₀ (appendEvent call transitionId ty m >>= f) t₁ ↔
      isBlank transitionId = false ∧ ¬t₁.Logged transitionId := by
  constructor
  · intro h
    have happend := (leaves_bind.1 h).1
    simp only [appendEvent, leaves_get_bind, leaves_lift_bind_of_ne hne, requireText_ok,
      leaves_check_bind_of_ne hne] at happend
    obtain ⟨_, ⟨hb, rfl⟩, hfresh, -⟩ := happend
    refine ⟨hb, ?_⟩
    rintro ⟨e, he, heq⟩
    exact hfresh e he heq
  · intro h
    exact leaves_of_fresh hs hz hm hf h.1 h.2

theorem returns_validate (hs : Sound t) :
    ∃ (u : Unit) (t' : Task), validateInvariants t = .ok u t' :=
  ⟨(), t, validateInvariants_ok.2 ⟨checkInvariants_ok.2 hs, rfl⟩⟩

/-! ## The commands that can spoil a task -/

/-- The claim is well formed and due, but the log has its transition. -/
def SpoilsClaim (t : Task) (workerId claimId leaseToken : String) (leaseExpiresAt : DateTime)
    (call : Call) : Prop :=
  call.now.tzAware = true ∧ t.status = .queued ∧ t.availableAt.instant ≤ call.now.instant ∧
    t.attempts.length < t.maxAttempts ∧ isBlank workerId = false ∧ isBlank claimId = false ∧
    isBlank leaseToken = false ∧ leaseExpiresAt.tzAware = true ∧
    call.now.instant < leaseExpiresAt.instant ∧ t.Logged ("claim:" ++ strip claimId)

theorem sound_attempt (hs : Sound t) (hq : t.status = .queued) (htask : a.taskId = t.id)
    (hnumber : a.number = t.attempts.length + 1) (hactive : a.isActive) (now : DateTime) :
    Sound { t with attempts := t.attempts ++ [a], status := .running, updatedAt := now } where
  attemptTask := List.forall_mem_append.2 ⟨hs.attemptTask, by simpa using htask⟩
  numbered := by
    rw [List.map_append, hs.numbered, List.map_singleton, hnumber, List.length_append,
      List.length_singleton, List.range'_concat, Nat.mul_comm, Nat.mul_one, Nat.add_comm]
  eventTask := hs.eventTask
  sequenced := hs.sequenced
  distinct := hs.distinct
  active := by
    have hnone := hs.active
    rw [if_neg (by simp [hq, TaskStatus.Live])] at hnone
    rw [List.countP_append, hnone]
    simp [hactive, TaskStatus.Live]
  summary := fun h => by cases h

/-- Once the attempt is made, a claim raises exactly if the log has its transition. -/
theorem claim_tail {workerId claimId leaseToken : String} {leaseExpiresAt : DateTime}
    (hs : Sound t) (hq : t.status = .queued)
    (ha : TaskAttempt.make
      { taskId := t.id, number := t.attempts.length + 1, workerId, claimId, leaseToken,
        leaseExpiresAt, id := call.attemptUuid, createdAt := call.now } = .ok a) :
    Leaves t (do
      appendEvent call ("claim:" ++ a.claimId) .taskClaimed
        [("attempt_number", .int a.number), ("claim_id", .text a.claimId),
          ("worker_id", .text a.workerId)]
      validateInvariants
      pure a) { t with attempts := t.attempts ++ [a], status := .running, updatedAt := call.now } ↔
    ¬t.Logged ("claim:" ++ strip claimId) := by
  obtain ⟨hn, htask, hactive, hw, hc, hclaim, hz⟩ :
      a.number = t.attempts.length + 1 ∧ a.taskId = t.id ∧ a.isActive ∧
        isBlank a.workerId = false ∧ isBlank a.claimId = false ∧ a.claimId = strip claimId ∧
        call.now.tzAware = true := by
    obtain ⟨-, hw, hc, -, -, hz, -, -, rfl⟩ := (TaskAttempt.make_ok rfl).1 ha
    exact ⟨rfl, rfl, rfl, isBlank_strip.trans hw, isBlank_strip.trans hc, rfl, hz⟩
  have hmeta := claimed_metadata (by omega : 0 < a.number) hc hw
  rw [leaves_append (fun h => by simpa [hq] using congrArg Task.status h)
    (sound_attempt hs hq htask hn hactive call.now) hz hmeta]
  · have hblank : isBlank ("claim:" ++ a.claimId) = false := isBlank_append_right hc
    rw [hclaim] at hblank ⊢
    simp only [hblank, true_and]
    exact Iff.rfl
  · intro t₂ hs₂
    obtain ⟨u, t₃, h⟩ := returns_validate hs₂
    exact ⟨a, t₃, bind_ok.2 ⟨u, t₃, h, rfl⟩⟩

theorem claim_leaves {workerId claimId leaseToken : String} {leaseExpiresAt : DateTime}
    (hs : Sound t) : Leaves t (claim workerId claimId leaseToken leaseExpiresAt call) t ↔
      ¬SpoilsClaim t workerId claimId leaseToken leaseExpiresAt call := by
  simp only [claim, leaves_lift_bind, leaves_get_bind, leaves_check_bind, leaves_modify_bind,
    requireUtc_ok, Option.some.injEq]
  constructor
  · rintro h ⟨hz, hq, hdue, hleft, hw, hc, hl, hz', hlt, hlogged⟩
    obtain ⟨a, ha⟩ : ∃ a, TaskAttempt.make
        { taskId := t.id, number := t.attempts.length + 1, workerId, claimId, leaseToken,
          leaseExpiresAt, id := call.attemptUuid, createdAt := call.now } = .ok a :=
      ⟨_, (TaskAttempt.make_ok rfl).2
        ⟨Nat.succ_pos _, hw, hc, hl, hz', hz, hlt, Int.le_refl _, rfl⟩⟩
    exact (claim_tail hs hq ha).1 (h call.now ⟨rfl, hz⟩ hq hdue hleft _ ha) hlogged
  · rintro h now ⟨rfl, hz⟩ hq hdue hleft a ha
    obtain ⟨-, hw, hc, hl, hz', -, hlt, -, -⟩ := (TaskAttempt.make_ok rfl).1 ha
    apply (claim_tail hs hq ha).2
    intro hlogged
    exact h ⟨hz, hq, hdue, hleft, hw, hc, hl, hz', hlt, hlogged⟩

/-- The retry is due, but its command is blank or in the log. -/
def SpoilsRequeue (t : Task) (commandId : String) (call : Call) : Prop :=
  call.now.tzAware = true ∧ t.status = .retryWait ∧ t.availableAt.instant ≤ call.now.instant ∧
    (isBlank commandId = true ∨ t.Logged ("requeue:" ++ strip commandId))

/-- A sound task may go to any status that asks for as many active attempts. -/
theorem sound_status (hs : Sound t) (hid : t₁.id = t.id) (hattempts : t₁.attempts = t.attempts)
    (hevents : t₁.events = t.events) (hlive : t₁.status.Live ↔ t.status.Live)
    (hopen : t₁.status ≠ .succeeded) : Sound t₁ where
  attemptTask := hid ▸ hattempts ▸ hs.attemptTask
  numbered := hattempts ▸ hs.numbered
  eventTask := hid ▸ hevents ▸ hs.eventTask
  sequenced := hevents ▸ hs.sequenced
  distinct := hevents ▸ hs.distinct
  active := by
    rw [hattempts, hs.active]
    simp only [hlive]
  summary := fun h => absurd h hopen

/-- A command id is checked after the writes, and then logged. -/
theorem leaves_command (t t₁ : Task) (commandId label tag : String) {ty : TaskEventType}
    {m m' : Metadata} (hne : t₁ ≠ t) (hs : Sound t₁) (hz : call.now.tzAware = true)
    (hm : safeMetadata ty m = .ok m') (hevents : t₁.events = t.events) :
    Leaves t (do
      let command ← lift (requireText commandId label)
      appendEvent call (tag ++ command) ty m
      validateInvariants) t₁ ↔
    ¬(isBlank commandId = true ∨ t.Logged (tag ++ strip commandId)) := by
  rw [leaves_lift_bind_of_ne hne]
  have hlogged (s : String) : t₁.Logged s ↔ t.Logged s := by rw [Logged, Logged, hevents]
  have hend (s : String) : Leaves t (do appendEvent call s ty m; validateInvariants) t₁ ↔
      isBlank s = false ∧ ¬t₁.Logged s :=
    leaves_append hne hs hz hm fun _ hs => returns_validate hs
  simp only [requireText_ok, and_assoc, exists_and_left, exists_eq_left, hend, hlogged, not_or,
    Bool.not_eq_true]
  constructor
  · rintro ⟨hb, -, hfresh⟩
    exact ⟨hb, hfresh⟩
  · rintro ⟨hb, hfresh⟩
    exact ⟨hb, isBlank_append_right (isBlank_strip.trans hb), hfresh⟩

theorem safeMetadata_nil {ty : TaskEventType} (h : eventMetadataFields ty = []) :
    safeMetadata ty [] = .ok [] := by
  simp [safeMetadata, mapEach, h]

theorem requeueDue_leaves {commandId : String} (hs : Sound t) :
    Leaves t (requeueDue commandId call) t ↔ ¬SpoilsRequeue t commandId call := by
  simp only [requeueDue, leaves_lift_bind, leaves_get_bind, leaves_check_bind, leaves_modify_bind,
    requireUtc_ok, Option.some.injEq]
  have htail (hz : call.now.tzAware = true) (hw : t.status = .retryWait) :=
    leaves_command t { t with status := .queued, availableAt := call.now, updatedAt := call.now }
      commandId "重新入队命令标识" "requeue:"
      (fun h => by simpa [hw] using congrArg Task.status h)
      (sound_status hs rfl rfl rfl (by simp [TaskStatus.Live, hw]) (by simp)) hz
      (safeMetadata_nil rfl : safeMetadata .taskRequeued [] = _) rfl
  constructor
  · rintro h ⟨hz, hw, hdue, hbad⟩
    exact (htail hz hw).1 (h call.now ⟨rfl, hz⟩ hw hdue) hbad
  · rintro h now ⟨rfl, hz⟩ hw hdue
    exact (htail hz hw).2 fun hbad => h ⟨hz, hw, hdue, hbad⟩

/-- The retry is allowed, but its command is blank or in the log. -/
def SpoilsManualRetry (t : Task) (commandId : String) (call : Call) : Prop :=
  call.now.tzAware = true ∧ t.status = .failed ∧ t.allowManualRetry = true ∧
    t.attempts.length < t.maxAttempts ∧
    (isBlank commandId = true ∨ t.Logged ("manual-retry:" ++ strip commandId))

theorem requestManualRetry_leaves {commandId : String} (hs : Sound t) :
    Leaves t (requestManualRetry commandId call) t ↔ ¬SpoilsManualRetry t commandId call := by
  simp only [requestManualRetry, leaves_lift_bind, leaves_get_bind, leaves_check_bind,
    leaves_modify_bind, requireUtc_ok, Option.some.injEq]
  have htail (hz : call.now.tzAware = true) (hf : t.status = .failed) :=
    leaves_command t
      { t with status := .queued, availableAt := call.now, failureCode := none,
               resultFingerprint := none, updatedAt := call.now }
      commandId "手动重试命令标识" "manual-retry:"
      (fun h => by simpa [hf] using congrArg Task.status h)
      (sound_status hs rfl rfl rfl (by simp [TaskStatus.Live, hf]) (by simp)) hz
      (safeMetadata_nil rfl : safeMetadata .taskRetryRequested [] = _) rfl
  constructor
  · rintro h ⟨hz, hf, hallow, hleft, hbad⟩
    exact (htail hz hf).1 (h call.now ⟨rfl, hz⟩ hf ⟨hallow, hleft⟩) hbad
  · rintro h now ⟨rfl, hz⟩ hf ⟨hallow, hleft⟩
    exact (htail hz hf).2 fun hbad => h ⟨hz, hf, hallow, hleft, hbad⟩

/-! ## Settling an attempt -/

theorem reads_onAttempt {α : Type} {method : AttemptM α} (h : Reads method) :
    Reads (onAttempt k method) := by
  intro t
  unfold onAttempt
  cases ha : t.attempts[k]? with
  | none => simp
  | some a =>
    have hput := put_self ha
    cases hm : method a with
    | ok r a' =>
      obtain rfl : a' = a := (h a).1 r a' hm
      simpa [Task.put, hm] using hput
    | error e a' =>
      obtain rfl : a' = a := (h a).2 e a' hm
      simpa [Task.put, hm] using hput

theorem reads_checkToken {leaseToken : String} : Reads (checkToken leaseToken) :=
  fixes_bind fixes_get fun _ => fixes_bind fixes_lift fun _ => fixes_check

theorem reads_assertValidLease {leaseToken : String} {now : DateTime} :
    Reads (assertValidLease leaseToken now) :=
  fixes_bind reads_checkToken fun _ => fixes_bind fixes_get fun _ => fixes_bind fixes_check fun _ =>
    fixes_bind fixes_lift fun _ => fixes_check

theorem reads_assertActiveLease {leaseToken : String} :
    Reads (assertActiveLease k leaseToken call) :=
  fixes_bind fixes_get fun _ => fixes_bind fixes_lift fun _ => fixes_bind fixes_check fun _ =>
    reads_onAttempt reads_assertValidLease

/-- An active attempt can be ended with facts that pass their own checks. -/
theorem finish_returns {status : AttemptStatus} {category : Option FailureCategory}
    {code code' fingerprint fingerprint' : Option String} (ha : t.attempts[k]? = some a)
    (hactive : a.isActive) (hne : status ≠ .active) (hz : call.now.tzAware = true)
    (hcode : optionalText requireSafeFailureCode code = .ok code')
    (hfp : optionalText requireSafeFingerprint fingerprint = .ok fingerprint') :
    onAttempt k (finish status call.now category code fingerprint) t =
      .ok () (t.put k (a.finished status call.now category code' fingerprint')) := by
  refine onAttempt_ok.2 ⟨a, _, ha, ?_, rfl⟩
  simp only [finish, bind_ok, exists_unit, get_ok, check_ok, modify_ok, lift_ok, requireUtc_ok,
    Option.some.injEq, exists_eq_left, exists_and_left, and_assoc]
  exact ⟨hactive, hne, _, rfl, hz, _, hcode, _, hfp, rfl⟩

/-- A task whose active attempt has ended is sound in a status without one. -/
theorem sound_settled (hs : Sound t) (ha : t.attempts[k]? = some a) (hactive : a.isActive)
    (hsame : a.Continues a') (hsettled : ¬a'.isActive) (hid : t₁.id = t.id)
    (hattempts : t₁.attempts = t.attempts.set k a') (hevents : t₁.events = t.events)
    (hlive : ¬t₁.status.Live) (hsummary : t₁.status = .succeeded → t₁.resultSummary.getD "" ≠ "") :
    Sound t₁ where
  attemptTask := by
    have h := map_put (f := TaskAttempt.taskId) ha hsame.taskId
    have hall : ∀ i ∈ t.attempts.map TaskAttempt.taskId, i = t.id :=
      List.forall_mem_map.2 hs.attemptTask
    rw [← h, Task.put, ← hid] at hall
    rw [hattempts]
    exact List.forall_mem_map.1 hall
  numbered := by
    have h := map_put (f := TaskAttempt.number) ha hsame.number
    rw [Task.put, ← hattempts] at h
    rw [h, hattempts, List.length_set, hs.numbered]
  eventTask := hid ▸ hevents ▸ hs.eventTask
  sequenced := hevents ▸ hs.sequenced
  distinct := hevents ▸ hs.distinct
  active := by
    obtain ⟨hk, rfl⟩ := List.getElem?_eq_some_iff.1 ha
    have hone := hs.active
    rw [if_pos (live_of_active hs ha hactive)] at hone
    rw [if_neg hlive, hattempts, List.countP_set hk, hone]
    simp [hactive, hsettled]
  summary := hsummary

/-! ## Metadata -/

/-- The keys of the metadata that a task writes hold no sensitive part. -/
theorem keys_insensitive : ["attempt_number", "result_fingerprint", "failure_code", "cancel_mode",
    "failure_category", "outcome"].all (fun key => sensitiveMetadataParts.any
      (fun part => contains part.toList (key.toList.map Char.toLower)) = false) = true := by
  decide +kernel

theorem insensitive {key : String} (hkey : key ∈ ["attempt_number", "result_fingerprint",
      "failure_code", "cancel_mode", "failure_category", "outcome"]) :
    sensitiveMetadataParts.any (fun part => contains part.toList (key.toList.map Char.toLower)) =
      false :=
  of_decide_eq_true (List.all_eq_true.1 keys_insensitive key hkey)

theorem safeEntry_number {ty : TaskEventType} {n : Nat} (hn : 0 < n)
    (hty : "attempt_number" ∈ eventMetadataFields ty) :
    safeEntry ty ("attempt_number", .int n) = .ok ("attempt_number", .int n) := by
  simp only [safeEntry, except_bind_ok, exists_unit, requireText_ok, require_ok]
  refine ⟨"attempt_number", by decide, insensitive (by decide), hty, ?_⟩
  simp [hn]

theorem safeEntry_fingerprint {ty : TaskEventType} {s : String} (hb : isBlank s = false)
    (hs : isSafeFingerprint (strip s) = true)
    (hty : "result_fingerprint" ∈ eventMetadataFields ty) :
    safeEntry ty ("result_fingerprint", .text s) = .ok ("result_fingerprint", .text (strip s)) := by
  simp only [safeEntry, except_bind_ok, exists_unit, requireText_ok, require_ok]
  refine ⟨"result_fingerprint", by decide, insensitive (by decide), hty, ?_⟩
  simp [metadataText, hb, hs]

theorem safeEntry_code {ty : TaskEventType} {s : String} (hb : isBlank s = false)
    (hs : isSafeFailureCode (strip s) = true) (hty : "failure_code" ∈ eventMetadataFields ty) :
    safeEntry ty ("failure_code", .text s) = .ok ("failure_code", .text (strip s)) := by
  simp only [safeEntry, except_bind_ok, exists_unit, requireText_ok, require_ok]
  refine ⟨"failure_code", by decide, insensitive (by decide), hty, ?_⟩
  simp [metadataText, hb, hs]

/-- Entries that pass, with every field the type asks for, pass together. -/
theorem safeMetadata_entries {ty : TaskEventType} {m m' : Metadata}
    (hentries : List.Forall₂ (fun p q => safeEntry ty p = .ok q) m m')
    (hfields : ∀ f ∈ eventMetadataFields ty, f ∉ optionalEventMetadataFields ty →
      f ∈ m'.map Prod.fst) : safeMetadata ty m = .ok m' := by
  simp only [safeMetadata, mapEach_ok.2 hentries, ok_bind, except_bind_ok, exists_unit, require_ok,
    except_pure_ok]
  exact ⟨hfields, trivial⟩

theorem cancelled_metadata {mode : String} (hb : isBlank mode = false) :
    safeMetadata .taskCancelled [("cancel_mode", .text mode)] =
      .ok [("cancel_mode", .text (strip mode))] := by
  refine safeMetadata_entries (.cons ?_ .nil) ?_
  · exact safeEntry_text (by decide) (by decide) (insensitive (by decide)) (by decide) (by decide) hb
  · simp [eventMetadataFields, optionalEventMetadataFields]

theorem confirmed_metadata {n : Nat} (hn : 0 < n) :
    safeMetadata .taskCancelled [("attempt_number", .int n), ("cancel_mode", .text "confirmed")] =
      .ok [("attempt_number", .int n), ("cancel_mode", .text (strip "confirmed"))] := by
  refine safeMetadata_entries (.cons (safeEntry_number hn (by decide)) (.cons ?_ .nil)) ?_
  · exact safeEntry_text (by decide) (by decide) (insensitive (by decide)) (by decide) (by decide)
      (by decide)
  · simp [eventMetadataFields, optionalEventMetadataFields]

theorem succeeded_metadata {n : Nat} {s : String} (hn : 0 < n) (hb : isBlank s = false)
    (hs : isSafeFingerprint (strip s) = true) :
    safeMetadata .taskSucceeded [("attempt_number", .int n), ("result_fingerprint", .text s)] =
      .ok [("attempt_number", .int n), ("result_fingerprint", .text (strip s))] := by
  refine safeMetadata_entries (.cons (safeEntry_number hn (by decide))
    (.cons (safeEntry_fingerprint hb hs (by decide)) .nil)) ?_
  simp [eventMetadataFields, optionalEventMetadataFields]

theorem failed_metadata {ty : TaskEventType} {n : Nat} {category : FailureCategory} {s : String}
    (hty : ty = .taskFailed ∨ ty = .taskRetryScheduled) (hn : 0 < n) (hb : isBlank s = false)
    (hs : isSafeFailureCode (strip s) = true) :
    safeMetadata ty [("attempt_number", .int n), ("failure_category", .text category.value),
        ("failure_code", .text s)] =
      .ok [("attempt_number", .int n), ("failure_category", .text (strip category.value)),
        ("failure_code", .text (strip s))] := by
  have hfields : eventMetadataFields ty = ["attempt_number", "failure_category", "failure_code"] ∧
      optionalEventMetadataFields ty = [] := by
    rcases hty with rfl | rfl <;> exact ⟨rfl, rfl⟩
  have hmem (f : String) (h : f ∈ ["attempt_number", "failure_category", "failure_code"]) :
      f ∈ eventMetadataFields ty := hfields.1 ▸ h
  refine safeMetadata_entries (.cons (safeEntry_number hn (hmem _ (by decide))) (.cons ?_
    (.cons (safeEntry_code hb hs (hmem _ (by decide))) .nil))) ?_
  · exact safeEntry_text (by decide) (by decide) (insensitive (by decide)) (hmem _ (by decide))
      (by decide) (by cases category <;> decide)
  · simp [hfields]

theorem recovered_metadata {n : Nat} {s : TaskStatus} (hn : 0 < n) :
    safeMetadata .taskRecovered [("attempt_number", .int n), ("outcome", .text s.value)] =
      .ok [("attempt_number", .int n), ("outcome", .text (strip s.value))] := by
  refine safeMetadata_entries (.cons (safeEntry_number hn (by decide)) (.cons ?_ .nil)) ?_
  · exact safeEntry_text (by decide) (by decide) (insensitive (by decide)) (by decide) (by decide)
      (by cases s <;> decide)
  · simp [eventMetadataFields, optionalEventMetadataFields]

/-! ## The commands that cannot spoil a task -/

/-- A transition with a tag that is not in the log is new. -/
theorem not_logged {tag rest : String} (htag : tag.toList.any isSpace = false)
    (hlog : ∀ e ∈ t.events, ¬Tagged tag e.transitionId) : ¬t.Logged (tag ++ rest) := by
  rintro ⟨e, he, heq⟩
  exact hlog e he (heq ▸ tagged_strip htag)

theorem requestCancel_leaves {commandId : String} (hs : Sound t) (hj : Journal t) :
    Leaves t (requestCancel commandId call) t := by
  simp only [requestCancel, leaves_lift_bind, leaves_get_bind, requireUtc_ok, requireText_ok,
    Option.some.injEq]
  rintro now ⟨rfl, hz⟩ command ⟨hb, rfl⟩
  have hend {ty : TaskEventType} {m m' : Metadata} (t₁ : Task) (hs₁ : Sound t₁)
      (hevents : t₁.events = t.events) (hm : safeMetadata ty m = .ok m')
      (hopen : ¬(t.status = .cancelRequested ∨ t.status = .cancelled)) :
      Leaves t (do
        appendEvent call ("cancel:" ++ strip commandId) ty m
        validateInvariants) t₁ := by
    refine leaves_of_fresh hs₁ hz hm (fun _ hs => returns_validate hs)
      (isBlank_append_right (isBlank_strip.trans hb)) (not_logged (by decide) ?_)
    rw [hevents]
    exact fun e he htag => hopen (hj.cancel e he htag)
  split_ifs with hwaiting hrunning
  · simp only [leaves_modify_bind]
    refine hend _ (sound_status hs rfl rfl rfl ?_ (by simp)) rfl (cancelled_metadata (by decide)) ?_
    · rcases hwaiting with h | h <;> simp [TaskStatus.Live, h]
    · rcases hwaiting with h | h <;> simp [h]
  · simp only [leaves_modify_bind]
    refine hend _ (sound_status hs rfl rfl rfl ?_ (by simp)) rfl (safeMetadata_nil rfl) ?_
    · simp [TaskStatus.Live, hrunning]
    · simp [hrunning]
  · exact leaves_throw_bind

theorem atomic_renew {leaseToken : String} {renewalSequence : Int} {leaseExpiresAt now : DateTime} :
    Atomic (renew leaseToken renewalSequence leaseExpiresAt now) := by
  refine atomic_bind reads_checkToken fun _ => atomic_bind fixes_get fun a => ?_
  refine atomic_bind fixes_check fun _ => atomic_bind fixes_lift fun expiry => ?_
  split_ifs
  · exact fixes_check.atomic
  · refine atomic_bind fixes_check fun _ => atomic_bind reads_assertValidLease fun _ => ?_
    exact atomic_bind fixes_check fun _ => (total_bind total_modify fun _ => total_modify).atomic

theorem atomic_onAttempt {α : Type} {method : AttemptM α} (h : Atomic method) :
    Atomic (onAttempt k method) := by
  intro t e t' ht
  unfold onAttempt at ht
  cases ha : t.attempts[k]? with
  | none =>
    simp only [ha, EStateM.Result.error.injEq] at ht
    exact ht.2.symm
  | some a =>
    cases hm : method a with
    | ok r a' => simp [ha, hm] at ht
    | error e a' =>
      obtain rfl : a' = a := h a e a' hm
      have hput := put_self ha
      simp only [ha, hm, EStateM.Result.error.injEq] at ht
      exact ht.2.symm.trans hput

theorem renewLease_leaves {attemptId : UUID} {leaseToken : String} {renewalSequence : Int}
    {leaseExpiresAt : DateTime} :
    Leaves t (renewLease attemptId leaseToken renewalSequence leaseExpiresAt call) t := by
  simp only [renewLease, leaves_get_bind, leaves_lift_bind, leaves_check_bind]
  intro k _ a _ _ _ active _ _
  refine leaves_bind.2 ⟨atomic_onAttempt atomic_renew t, ?_⟩
  intro u t' h
  obtain ⟨b, b', hb, -, rfl⟩ := onAttempt_ok.1 h
  have hget : (t.put k b').attempt k = .ok b' :=
    attempt_ok.2 ((getElem?_set_of hb).trans (if_pos rfl))
  exact leaves_get_bind.2 (leaves_of_ok (lift_ok.2 ⟨hget, rfl⟩))

theorem number_pos (hs : Sound t) (ha : t.attempts[k]? = some a) : 0 < a.number := by
  rw [number_of_position hs ha]
  exact Nat.succ_pos k

/-- The command that ends an attempt returns once the attempt has ended. -/
theorem leaves_settled {transitionId : String} {ty : TaskEventType} {m m' : Metadata}
    (hs : Sound t) (ha : t.attempts[k]? = some a) (hactive : a.isActive) (hsame : a.Continues a')
    (hsettled : ¬a'.isActive) (hid : t₁.id = t.id) (hattempts : t₁.attempts = t.attempts.set k a')
    (hevents : t₁.events = t.events) (hlive : ¬t₁.status.Live)
    (hsummary : t₁.status = .succeeded → t₁.resultSummary.getD "" ≠ "")
    (hz : call.now.tzAware = true) (hm : safeMetadata ty m = .ok m')
    (hb : isBlank transitionId = false) (hfresh : ¬t.Logged transitionId) :
    Leaves t (do appendEvent call transitionId ty m; validateInvariants) t₁ := by
  refine leaves_of_fresh (sound_settled hs ha hactive hsame hsettled hid hattempts hevents hlive
    hsummary) hz hm (fun _ hs => returns_validate hs) hb ?_
  rwa [Logged, hevents]

theorem confirmCancel_leaves {attemptId : UUID} {leaseToken : String} (hs : Sound t)
    (hj : Journal t) : Leaves t (confirmCancel attemptId leaseToken call) t := by
  simp only [confirmCancel, leaves_get_bind, leaves_lift_bind]
  intro k hk a ha
  have hn := findAttempt_names hk ha
  split_ifs with hagain
  · exact leaves_of_reads (fixes_bind fixes_lift fun _ => fixes_check)
  · simp only [leaves_check_bind, leaves_read_bind reads_assertActiveLease, leaves_lift_bind,
      requireUtc_ok, Option.some.injEq]
    rintro hactive hrequested _ - now ⟨rfl, hz⟩
    rw [leaves_bind_of_ok (finish_returns hn.2 hactive (by simp) hz rfl rfl)]
    simp only [leaves_modify_bind]
    refine leaves_settled hs hn.2 hactive continues_finished
      (by simp [TaskAttempt.isActive, finished]) rfl rfl rfl (by simp [TaskStatus.Live]) (by simp)
      hz (confirmed_metadata (number_pos hs hn.2))
      (isBlank_eq_false (c := 'c') (by simp) (by decide)) ?_
    refine not_logged (by decide) fun e he htag => ?_
    have hs := hj.cancelled e he htag
    rw [hrequested] at hs
    cases hs

theorem optionalText_fingerprint_ok {s : String} (hb : isBlank s = false)
    (hs : isSafeFingerprint (strip s) = true) :
    optionalText requireSafeFingerprint (some (strip s)) = .ok (some (strip s)) := by
  rw [optionalText, if_neg (ne_empty_of_not_blank hb),
    requireSafeFingerprint_ok.2 ⟨isBlank_strip.trans hb, by rwa [strip_strip], rfl⟩, strip_strip]
  rfl

theorem complete_leaves {attemptId : UUID} {leaseToken fingerprint summary : String} (hs : Sound t)
    (hj : Journal t) : Leaves t (complete attemptId leaseToken fingerprint summary call) t := by
  simp only [complete, leaves_get_bind, leaves_lift_bind, requireSafeFingerprint_ok]
  rintro k hk a ha _ ⟨hblank, hsafe, rfl⟩
  have hn := findAttempt_names hk ha
  split_ifs with hagain
  · exact leaves_of_reads fixes_assertSameTerminalResult
  · simp only [leaves_check_bind, leaves_read_bind reads_assertActiveLease, leaves_lift_bind,
      requireUtc_ok, requireText_ok, Option.some.injEq]
    rintro hactive hrunning _ - now ⟨rfl, hz⟩ _ ⟨hsummary, rfl⟩
    rw [leaves_bind_of_ok (finish_returns hn.2 hactive (by simp) hz rfl
      (optionalText_fingerprint_ok hblank hsafe))]
    simp only [leaves_modify_bind]
    refine leaves_settled hs hn.2 hactive continues_finished
      (by simp [TaskAttempt.isActive, finished]) rfl rfl rfl (by simp [TaskStatus.Live]) ?_ hz
      (succeeded_metadata (number_pos hs hn.2) (isBlank_strip.trans hblank)
        (strip_strip.symm ▸ hsafe))
      (isBlank_eq_false (c := 's') (by simp) (by decide)) ?_
    · exact fun _ => ne_empty_of_not_blank hsummary
    · rw [String.append_assoc, String.append_assoc]
      refine not_logged (by decide) fun e he htag => ?_
      have hs := hj.succeeded e he htag
      rw [hrunning] at hs
      cases hs

theorem optionalText_code_ok {s : String} (hb : isBlank s = false)
    (hs : isSafeFailureCode (strip s) = true) :
    optionalText requireSafeFailureCode (some (strip s)) = .ok (some (strip s)) := by
  rw [optionalText, if_neg (ne_empty_of_not_blank hb),
    requireSafeFailureCode_ok.2 ⟨isBlank_strip.trans hb, by rwa [strip_strip], rfl⟩, strip_strip]
  rfl

theorem fail_leaves {attemptId : UUID} {leaseToken : String} {category : FailureCategory}
    {code fingerprint : String} {retryAt : Option DateTime} (hs : Sound t) (hj : Journal t) :
    Leaves t (fail attemptId leaseToken category code fingerprint retryAt call) t := by
  simp only [fail, leaves_get_bind, leaves_lift_bind, requireSafeFingerprint_ok]
  rintro k hk a ha _ ⟨hblank, hsafe, rfl⟩
  have hn := findAttempt_names hk ha
  split_ifs with hagain
  · exact leaves_of_reads fixes_assertSameTerminalResult
  · simp only [leaves_check_bind, leaves_read_bind reads_assertActiveLease, leaves_lift_bind,
      requireUtc_ok, requireSafeFailureCode_ok, Option.some.injEq]
    rintro hactive hrunning _ - now ⟨rfl, hz⟩ _ ⟨hcode, hsafeCode, rfl⟩ retry -
    rw [leaves_bind_of_ok (finish_returns hn.2 hactive (by simp) hz
      (optionalText_code_ok hcode hsafeCode) (optionalText_fingerprint_ok hblank hsafe))]
    simp only [leaves_modify_bind]
    have hfresh : ¬t.Logged ("failed:" ++ uuidText a.id ++ ":" ++ strip fingerprint) := by
      refine not_logged (not_isSpace_failTag : (failTag a.id).toList.any isSpace = false) ?_
      intro e he htag
      rw [names_id hn] at htag
      obtain ⟨j, b, hb, hsettled⟩ := hj.failed e he attemptId htag
      obtain rfl : k = j := Except.ok.inj (hn.1.symm.trans hb.1)
      obtain rfl : a = b := Option.some.inj (hn.2.symm.trans hb.2)
      exact hsettled hactive
    have hend {ty : TaskEventType} (hty : ty = .taskFailed ∨ ty = .taskRetryScheduled) (t₁ : Task)
        (hid : t₁.id = t.id)
        (hattempts : t₁.attempts = t.attempts.set k (a.finished .failed call.now (some category)
          (some (strip code)) (some (strip fingerprint))))
        (hevents : t₁.events = t.events) (hlive : ¬t₁.status.Live)
        (hopen : t₁.status ≠ .succeeded) :
        Leaves t (do
          appendEvent call ("failed:" ++ uuidText a.id ++ ":" ++ strip fingerprint) ty
            [("attempt_number", .int a.number), ("failure_category", .text category.value),
              ("failure_code", .text (strip code))]
          validateInvariants) t₁ :=
      leaves_settled hs hn.2 hactive continues_finished (by simp [TaskAttempt.isActive, finished])
        hid hattempts hevents hlive (fun h => absurd h hopen) hz
        (failed_metadata hty (number_pos hs hn.2) (isBlank_strip.trans hcode)
          (strip_strip.symm ▸ hsafeCode))
        (isBlank_eq_false (c := 'f') (by simp) (by decide)) hfresh
    cases retry with
    | some time =>
      simp only [leaves_modify_bind, leaves_pure_bind]
      exact hend (Or.inr rfl) _ rfl rfl rfl (by simp [TaskStatus.Live]) (by simp)
    | none =>
      simp only [leaves_modify_bind, leaves_pure_bind]
      exact hend (Or.inl rfl) _ rfl rfl rfl (by simp [TaskStatus.Live]) (by simp)

/-! ## Recovery -/

/-- The retry time of a recovery is checked, and carries no time zone. -/
def NaiveRetry (t : Task) (retryAt : Option DateTime) : Prop :=
  t.status ≠ .cancelRequested ∧ t.attempts.length < t.maxAttempts ∧
    ∃ time, retryAt = some time ∧ time.tzAware = false

/-- The active attempt has expired, but the retry time is naive, or the command is blank or in the
log. -/
def SpoilsRecovery (t : Task) (commandId : String) (retryAt : Option DateTime)
    (attemptId : Option UUID) (call : Call) : Prop :=
  call.now.tzAware = true ∧ t.status.Live ∧
    ∃ k a, t.activeAttempt = .ok (some k) ∧ t.attempts[k]? = some a ∧
      a.leaseExpiresAt.instant ≤ call.now.instant ∧ (∀ id, attemptId = some id → a.id = id) ∧
      (NaiveRetry t retryAt ∨ isBlank commandId = true ∨
        t.Logged ("recovered:" ++ strip commandId))

theorem active_of_activeAttempt (h : t.activeAttempt = .ok (some k))
    (ha : t.attempts[k]? = some a) : a.isActive := by
  unfold activeAttempt at h
  split_ifs at h
  have hmem := List.mem_of_mem_head? (Option.mem_def.2 (except_pure_ok.1 h))
  obtain ⟨⟨b, j⟩, hb, rfl⟩ := List.mem_map.1 hmem
  obtain ⟨hb, hactive⟩ := List.mem_filter.1 hb
  rw [List.mk_mem_zipIdx_iff_getElem?.1 hb, Option.some.injEq] at ha
  exact ha ▸ of_decide_eq_true hactive

theorem recoverOutcome_naive {retryAt : Option DateTime} (now : DateTime)
    (h : NaiveRetry t retryAt) : ∃ e, recoverOutcome retryAt now t = .error e t := by
  obtain ⟨hs, hleft, time, rfl, hz⟩ := h
  refine ⟨.value ("恢复重试时间" ++ "必须是带时区的时间。"), bind_error.2 (Or.inr ⟨t, t, rfl, ?_⟩)⟩
  rw [if_neg hs, if_neg (Nat.not_le.2 hleft)]
  refine bind_error.2 (Or.inl (lift_error.2 ⟨?_, rfl⟩))
  simp only [requireUtc, hz, require, Bool.false_eq_true, if_false]
  rfl

theorem naive_of_error {retryAt : Option DateTime} {now : DateTime} {e : TaskError}
    (h : recoverOutcome retryAt now t = .error e t') : NaiveRetry t retryAt := by
  rcases bind_error.1 h with hget | ⟨_, _, hget, hrest⟩
  · cases hget
  · obtain ⟨rfl, rfl⟩ := get_ok.1 hget
    clear h
    have hput {g : Task → Task} {s : TaskStatus} :
        Total (do (modify g : TaskM Unit); pure s) := total_bind total_modify fun _ => total_pure
    split_ifs at hrest with hs hleft
    · exact absurd hrest (total_pure _ _ _)
    · exact absurd hrest (hput _ _ _)
    · cases retryAt with
      | none => exact absurd hrest (hput _ _ _)
      | some time =>
        rcases bind_error.1 hrest with h | ⟨_, _, -, h⟩
        · refine ⟨hs, Nat.lt_of_not_le hleft, time, rfl, ?_⟩
          by_contra hz
          have hutc : requireUtc (some time) "恢复重试时间" = .ok time :=
            requireUtc_ok.2 ⟨rfl, Bool.not_eq_false _ ▸ hz⟩
          rw [lift_error, hutc] at h
          cases h.1
        · split_ifs at h
          · exact absurd h (hput _ _ _)
          · exact absurd h (hput _ _ _)

/-- Where recovery sends a task, it is not live and has not succeeded. -/
theorem Recovers.settled {retryAt : Option DateTime} {now availableAt : DateTime}
    {outcome : TaskStatus} {failureCode : Option String}
    (h : Recovers t retryAt now outcome availableAt failureCode) :
    ¬outcome.Live ∧ outcome ≠ .succeeded := by
  cases h <;> simp [TaskStatus.Live]

/-- Once the attempt has expired, recovery raises exactly if the retry time is naive, or the command
is blank or in the log. -/
theorem recover_tail {commandId : String} {retryAt : Option DateTime} (hs : Sound t)
    (ha : t.attempts[k]? = some a) (hactive : a.isActive) (hz : call.now.tzAware = true) :
    Leaves t (do
      let outcome ← recoverOutcome retryAt call.now
      modify fun t => { t with status := outcome }
      modify fun t => { t with updatedAt := call.now }
      let command ← lift (requireText commandId "恢复命令标识")
      appendEvent call ("recovered:" ++ command) .taskRecovered
        [("attempt_number", .int a.number), ("outcome", .text outcome.value)]
      validateInvariants)
      (t.put k (a.finished .expired call.now (some .leaseExpired) (some "LEASE_EXPIRED") none)) ↔
    ¬(NaiveRetry t retryAt ∨ isBlank commandId = true ∨
      t.Logged ("recovered:" ++ strip commandId)) := by
  set a' := a.finished .expired call.now (some .leaseExpired) (some "LEASE_EXPIRED") none with ha'
  have hsettled : ¬a'.isActive := by simp [ha', TaskAttempt.isActive, finished]
  have hne (t₁ : Task) (h : t₁.attempts = t.attempts.set k a') : t₁ ≠ t := by
    rintro rfl
    have hk := congrArg (fun l => l[k]?) h
    simp only [getElem?_set_of ha, if_pos, ha, Option.some.injEq] at hk
    exact hsettled (hk ▸ hactive)
  have hnaive : NaiveRetry (t.put k a') retryAt ↔ NaiveRetry t retryAt := by
    rw [NaiveRetry, length_put]
    exact Iff.rfl
  by_cases hretry : NaiveRetry t retryAt
  · obtain ⟨e, he⟩ := recoverOutcome_naive call.now (hnaive.2 hretry)
    simp only [hretry, true_or, not_true_eq_false, iff_false]
    intro h
    exact hne _ rfl (h e _ (bind_error.2 (Or.inl he)))
  · obtain ⟨outcome, t₂, h⟩ : ∃ outcome t₂,
        recoverOutcome retryAt call.now (t.put k a') = .ok outcome t₂ := by
      cases h : recoverOutcome retryAt call.now (t.put k a') with
      | ok outcome t₂ => exact ⟨outcome, t₂, rfl⟩
      | error e t₂ => exact absurd (hnaive.1 (naive_of_error h)) hretry
    obtain ⟨availableAt, failureCode, hout, rfl⟩ := recoverOutcome_ok h
    rw [leaves_bind_of_ok h]
    simp only [leaves_modify_bind, hretry, false_or]
    refine leaves_command t _ commandId "恢复命令标识" "recovered:" (hne _ rfl) ?_ hz
      (recovered_metadata (number_pos hs ha)) rfl
    exact sound_settled hs ha hactive continues_finished hsettled rfl rfl rfl hout.settled.1
      fun h => absurd h hout.settled.2

theorem recoverExpiredAttempt_leaves {commandId : String} {retryAt : Option DateTime}
    {attemptId : Option UUID} (hs : Sound t) :
    Leaves t (recoverExpiredAttempt commandId retryAt attemptId call) t ↔
      ¬SpoilsRecovery t commandId retryAt attemptId call := by
  simp only [recoverExpiredAttempt, leaves_lift_bind, leaves_get_bind, leaves_check_bind,
    requireUtc_ok, Option.some.injEq]
  have hfinish {k : Nat} {a : TaskAttempt} (hz : call.now.tzAware = true)
      (h : t.activeAttempt = .ok (some k)) (ha : t.attempts[k]? = some a) :
      onAttempt k
          (finish .expired call.now (some .leaseExpired) (some "LEASE_EXPIRED") none) t =
        .ok () (t.put k
          (a.finished .expired call.now (some .leaseExpired) (some "LEASE_EXPIRED") none)) :=
    finish_returns ha (active_of_activeAttempt h ha) (by simp) hz
      (optionalText_code_ok (s := "LEASE_EXPIRED") (by decide) (by decide)) rfl
  constructor
  · rintro h ⟨hz, hlive, k, a, hk, ha, hexpired, hid, hbad⟩
    have htail := h call.now ⟨rfl, hz⟩ hlive (some k) hk
    simp only [leaves_lift_bind, leaves_check_bind] at htail
    have hend := htail a (attempt_ok.2 ha) hexpired hid
    rw [leaves_bind_of_ok (hfinish hz hk ha)] at hend
    exact (recover_tail hs ha (active_of_activeAttempt hk ha) hz).1 hend hbad
  · rintro h now ⟨rfl, hz⟩ hlive active hk
    cases active with
    | none => exact leaves_throw
    | some k =>
      simp only [leaves_lift_bind, leaves_check_bind]
      intro a ha hexpired hid
      rw [attempt_ok] at ha
      rw [leaves_bind_of_ok (hfinish hz hk ha)]
      apply (recover_tail hs ha (active_of_activeAttempt hk ha) hz).2
      intro hbad
      exact h ⟨hz, hlive, k, a, hk, ha, hexpired, hid, hbad⟩

/-! ## All commands -/

/-- The command passes its checks, writes, and raises then. -/
def Spoils (t : Task) (r : Request) : Prop :=
  match r.command with
  | .claim workerId claimId leaseToken leaseExpiresAt =>
    SpoilsClaim t workerId claimId leaseToken leaseExpiresAt r.call
  | .requeueDue commandId => SpoilsRequeue t commandId r.call
  | .requestManualRetry commandId => SpoilsManualRetry t commandId r.call
  | .recoverExpiredAttempt commandId retryAt attemptId =>
    SpoilsRecovery t commandId retryAt attemptId r.call
  | _ => False

theorem execute_leaves {r : Request} (hs : Sound t) (hj : Journal t) :
    Leaves t (execute r) t ↔ ¬Spoils t r := by
  obtain ⟨command, call⟩ := r
  cases command with
  | claim => exact leaves_discard.trans (claim_leaves hs)
  | renewLease => exact iff_of_true (leaves_discard.2 renewLease_leaves) id
  | requestCancel => exact iff_of_true (requestCancel_leaves hs hj) id
  | confirmCancel => exact iff_of_true (confirmCancel_leaves hs hj) id
  | complete => exact iff_of_true (complete_leaves hs hj) id
  | fail => exact iff_of_true (fail_leaves hs hj) id
  | requeueDue => exact requeueDue_leaves hs
  | requestManualRetry => exact requestManualRetry_leaves hs
  | recoverExpiredAttempt => exact recoverExpiredAttempt_leaves hs

/-- A command is issued: the task accepts it, or is left as the error leaves it. -/
def Issues (t : Task) (r : Request) (t' : Task) : Prop :=
  Accepts t r t' ∨ ∃ e, execute r t = .error e t'

/-- The second claim of a task under the claim id of the first. -/
def sameClaim : Request := ⟨.claim "w2" "c1" "tok2" ⟨9, true⟩, callAt 4⟩

/-- The task that a rejected command leaves. -/
def leftBy (r : Request) (t : Task) : Option Task :=
  match execute r t with
  | .ok _ _ => none
  | .error _ t' => some t'

theorem sameClaim_rejected : (leftBy sameClaim claimedTask).isSome = true := by decide +kernel

/-- The first attempt fails and the task is queued again. -/
def queuedAgain : List Request :=
  [firstClaim, ⟨.fail 11 "tok1" .transient "BUSY" "f1" (some ⟨3, true⟩), callAt 2⟩,
    ⟨.requeueDue "again", callAt 3⟩]

theorem sameClaim_spoils : (playNew queuedAgain).any (fun t => t.status = .queued ∧
    (leftBy sameClaim t).map Task.status = some .running) = true := by
  decide +kernel

end GoAgent.Tasks
