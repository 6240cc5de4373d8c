import GoAgent.Tasks.Effect
import GoAgent.Foundation.Transition

/-!
# The life of a task

A task is created and then changed by accepted commands (`Accepts`). The invariant of every such
task is `Healthy`: it passes its own check (`Sound`), it has at most `maxAttempts` attempts, and
while it waits to be claimed, now or after a retry delay, it has an attempt left. The last part
is one the code never checks.

* `sound_of_execute`, `healthy_of_execute` — accepted commands keep the invariant.
* `claim_accepted` — a waiting task accepts a well-formed claim.
* `task_lifecycle` — what holds of every task, and which statuses it cannot leave.
-/

namespace GoAgent.Tasks

open GoAgent.Foundation GoAgent.Tasks.Task GoAgent.Tasks.TaskAttempt

variable {t t' : Task} {call : Call} {k : Nat} {a a' : TaskAttempt} {u : Unit}

/-- What `checkInvariants` checks. -/
structure Sound (t : Task) : Prop where
  attemptTask : ∀ a ∈ t.attempts, a.taskId = t.id
  numbered : t.attempts.map TaskAttempt.number = List.range' 1 t.attempts.length
  eventTask : ∀ e ∈ t.events, e.taskId = t.id
  sequenced : t.events.map TaskEvent.sequence = List.range' 1 t.events.length
  distinct : (t.events.map TaskEvent.transitionId).Nodup
  active : (t.attempts.countP fun a => a.isActive) = if t.status.Live then 1 else 0
  summary : t.status = .succeeded → t.resultSummary.getD "" ≠ ""

theorem checkInvariants_ok : checkInvariants t = .ok () ↔ Sound t := by
  simp only [checkInvariants, except_bind_ok, exists_unit, require_ok]
  constructor
  · intro h
    obtain ⟨h₁, h₂, h₃, h₄, h₅, h₆⟩ := h
    split_ifs at h₆ with hlive
    · simp only [except_bind_ok, exists_unit, require_ok] at h₆
      exact ⟨h₁, h₂, h₃, h₄, h₅, by rw [if_pos hlive, h₆.1], h₆.2⟩
    · simp only [except_bind_ok, exists_unit, require_ok] at h₆
      exact ⟨h₁, h₂, h₃, h₄, h₅, by rw [if_neg hlive, h₆.1], h₆.2⟩
  · intro h
    refine ⟨h.attemptTask, h.numbered, h.eventTask, h.sequenced, h.distinct, ?_⟩
    have hactive := h.active
    split_ifs at hactive ⊢ with hlive
    · simp only [except_bind_ok, exists_unit, require_ok]
      exact ⟨hactive, h.summary⟩
    · simp only [except_bind_ok, exists_unit, require_ok]
      exact ⟨hactive, h.summary⟩

/-! ## Putting an attempt back -/

theorem length_put : (t.put k a).attempts.length = t.attempts.length := List.length_set

/-- A column that the attempt put back shares with the one it replaces keeps its values. -/
theorem map_put {β : Type} {f : TaskAttempt → β} (ha : t.attempts[k]? = some a)
    (hf : f a' = f a) : (t.put k a').attempts.map f = t.attempts.map f := by
  obtain ⟨hk, rfl⟩ := List.getElem?_eq_some_iff.1 ha
  rw [Task.put, List.map_set, hf]
  have hk' : k < (t.attempts.map f).length := by rwa [List.length_map]
  rw [← List.getElem_map f (h := hk'), List.set_getElem_self]

theorem countP_put (ha : t.attempts[k]? = some a) (hactive : a'.isActive ↔ a.isActive) :
    ((t.put k a').attempts.countP fun a => a.isActive) =
      t.attempts.countP fun a => a.isActive := by
  have h := map_put (f := fun a => decide a.isActive) ha (decide_eq_decide.2 hactive)
  have hcount := congrArg (List.countP id) h
  rwa [List.countP_map, List.countP_map] at hcount

/-- A renewal passes the check that it does not run. -/
theorem sound_put (hs : Sound t) (ha : t.attempts[k]? = some a) (htask : a'.taskId = a.taskId)
    (hnumber : a'.number = a.number) (hactive : a'.isActive ↔ a.isActive) :
    Sound (t.put k a') where
  attemptTask := by
    have h := map_put (f := TaskAttempt.taskId) ha htask
    have hall : ∀ i ∈ t.attempts.map TaskAttempt.taskId, i = t.id := List.forall_mem_map.2 hs.attemptTask
    rw [← h] at hall
    exact List.forall_mem_map.1 hall
  numbered := by rw [map_put ha hnumber, length_put, hs.numbered]
  eventTask := hs.eventTask
  sequenced := hs.sequenced
  distinct := hs.distinct
  active := (countP_put ha hactive).trans hs.active
  summary := hs.summary

/-! ## The invariant -/

structure Healthy (t : Task) : Prop where
  sound : Sound t
  bounded : t.attempts.length ≤ t.maxAttempts
  room : t.status = .queued ∨ t.status = .retryWait → t.attempts.length < t.maxAttempts

theorem sound_of_execute {r : Request} (hs : Sound t) (h : execute r t = .ok u t') : Sound t' := by
  rcases accepted_of_execute h with ⟨-, rfl | hvalid⟩ | ⟨_, _, _, _, hr, heffect⟩
  · exact hs
  · exact checkInvariants_ok.1 hvalid
  · rw [hr] at heffect
    cases heffect with
    | renewAgain => exact hs
    | renew hn => exact sound_put hs hn.2 rfl rfl Iff.rfl

theorem bounded_of_effect {c : TaskCommand} (hs : t.attempts.length ≤ t.maxAttempts)
    (h : Effect call t c t') : t'.attempts.length ≤ t'.maxAttempts := by
  cases h with
  | claim _ _ hleft =>
    rw [List.length_append]
    exact hleft
  | renew | confirm | complete | failRetry | fail | recover => exact length_put.trans_le hs
  | _ => exact hs

theorem room_of_effect {c : TaskCommand}
    (hs : t.status = .queued ∨ t.status = .retryWait → t.attempts.length < t.maxAttempts)
    (h : Effect call t c t') (hwait : t'.status = .queued ∨ t'.status = .retryWait) :
    t'.attempts.length < t'.maxAttempts := by
  cases h with
  | renewAgain | confirmAgain | completeAgain | failAgain => exact hs hwait
  | renew => exact length_put.trans_lt (hs hwait)
  | failRetry _ _ _ _ hleft => exact length_put.trans_lt hleft
  | requeue hretry => exact hs (Or.inr hretry)
  | manualRetry _ _ hleft => exact hleft
  | recover _ _ _ _ _ hout =>
    cases hout with
    | cancel | exhausted => simp only [reduceCtorEq, or_self] at hwait
    | delayed _ hleft | requeued _ hleft => exact length_put.trans_lt hleft
  | claim | cancelWaiting | cancelRunning | confirm | complete | fail =>
    simp only [reduceCtorEq, or_self] at hwait

theorem healthy_of_execute {r : Request} (hs : Healthy t) (h : execute r t = .ok u t') :
    Healthy t' where
  sound := sound_of_execute hs.sound h
  bounded := bounded_of_effect hs.bounded (effect_of_execute h)
  room := room_of_effect hs.room (effect_of_execute h)

/-- The task `Task.create` returns. -/
def Created (t : Task) : Prop :=
  ∃ taskType ownerSubject idempotencyKey inputFingerprint maxAttempts displayMetadata
    allowManualRetry taskId call,
    create taskType ownerSubject idempotencyKey inputFingerprint maxAttempts displayMetadata
      allowManualRetry taskId call = .ok t

/-- The task accepts the request. -/
def Accepts (t : Task) (r : Request) (t' : Task) : Prop := execute r t = .ok () t'

theorem created_ok (h : Created t) : t.status = .queued ∧ t.attempts = [] ∧ 0 < t.maxAttempts ∧
    ∃ e, t.events = [e] ∧ e.eventType = .taskCreated ∧ e.sequence = 1 ∧ e.taskId = t.id := by
  obtain ⟨_, _, _, _, maxAttempts, _, _, _, _, h⟩ := h
  simp only [create, except_bind_ok, exists_unit, requireUtc_ok, requireText_ok, require_ok,
    except_pure_ok] at h
  obtain ⟨_, -, _, -, _, -, _, -, _, -, hmax, -, -, _, -, e, he, rfl⟩ := h
  obtain ⟨-, -, -, _, -, rfl⟩ := TaskEvent.make_ok.1 he
  exact ⟨rfl, rfl, Int.lt_toNat.2 hmax, _, rfl, rfl, rfl, rfl⟩

theorem healthy_of_created (h : Created t) : Healthy t := by
  obtain ⟨hs, hattempts, hmax, e, hevents, -, hseq, htask⟩ := created_ok h
  refine ⟨⟨?_, ?_, ?_, ?_, ?_, ?_, ?_⟩, ?_, fun _ => ?_⟩
  · simp [hattempts]
  · simp [hattempts]
  · simpa [hevents] using htask
  · simp [hevents, hseq]
  · simp [hevents]
  · simp [hattempts, hs, TaskStatus.Live]
  · simp [hs]
  · simp [hattempts]
  · simpa [hattempts] using hmax

theorem healthy_of_reachable (h : Reachable Created Accepts t) : Healthy t :=
  h.invariant (fun h => healthy_of_created h) fun hs h => healthy_of_execute hs h

/-! ## The state machine -/

/-- The statuses a command can move a task to. -/
def TaskStatus.next : TaskStatus → List TaskStatus
  | .queued => [.running, .cancelled]
  | .running => [.cancelRequested, .succeeded, .failed, .retryWait, .queued]
  | .retryWait => [.queued, .cancelled]
  | .cancelRequested => [.cancelled]
  | .failed => [.queued]
  | .succeeded | .cancelled => []

theorem status_of_effect {c : TaskCommand} (h : Effect call t c t') :
    t'.status = t.status ∨ t'.status ∈ t.status.next := by
  cases h with
  | renewAgain | confirmAgain | completeAgain | failAgain | renew => exact Or.inl rfl
  | cancelWaiting hs => rcases hs with hs | hs <;> simp [hs, TaskStatus.next]
  | recover hlive _ _ _ _ hout =>
    rcases hlive with hs | hs <;> cases hout <;> simp_all [TaskStatus.next]
  | claim hs | cancelRunning hs | confirm hs | complete hs | failRetry hs | fail hs | requeue hs
    | manualRetry hs => simp [hs, TaskStatus.next]

/-- A task in a status without a next one stays in it. -/
theorem final_of_steps {rs : List Request} (hs : t.status.next = [])
    (h : Steps Accepts t rs t') : t'.status = t.status := by
  induction h with
  | nil => rfl
  | cons hstep _ ih =>
    have hsame := (status_of_effect (effect_of_execute hstep)).resolve_right (by simp [hs])
    exact (ih (hsame ▸ hs)).trans hsame

theorem failed_left {r : Request} (h : Accepts t r t') (hs : t.status = .failed)
    (hleft : t'.status ≠ .failed) : ∃ commandId, r.command = .requestManualRetry commandId := by
  obtain ⟨command, call⟩ := r
  have heffect : Effect call t command t' := effect_of_execute h
  cases heffect with
  | manualRetry => exact ⟨_, rfl⟩
  | renewAgain | confirmAgain | completeAgain | failAgain | renew => exact absurd hs hleft
  | cancelWaiting hs' => simp [hs] at hs'
  | recover hlive => simp [hs, TaskStatus.Live] at hlive
  | claim hs' | cancelRunning hs' | confirm hs' | complete hs' | failRetry hs' | fail hs'
    | requeue hs' => simp [hs] at hs'

/-! ## Claims -/

/-- One metadata entry with a plain key and a text. -/
theorem safeEntry_text {ty : TaskEventType} {key value : String} (hb : isBlank key = false)
    (hkey : strip key = key)
    (hsafe : (sensitiveMetadataParts.any fun part =>
      contains part.toList (key.toList.map Char.toLower)) = false)
    (hmem : key ∈ eventMetadataFields ty)
    (hplain : key ≠ "attempt_number" ∧ key ≠ "failure_code" ∧ key ≠ "result_fingerprint")
    (hv : isBlank value = false) :
    safeEntry ty (key, .text value) = .ok (key, .text (strip value)) := by
  simp only [safeEntry, except_bind_ok, exists_unit, requireText_ok, require_ok]
  refine ⟨key, ⟨hb, hkey.symm⟩, hsafe, hmem, ?_⟩
  rw [if_neg hplain.1]
  simp [metadataText, hplain, hv]

theorem claimed_metadata {number : Nat} {claimId workerId : String} (hn : 0 < number)
    (hc : isBlank claimId = false) (hw : isBlank workerId = false) :
    safeMetadata .taskClaimed [("attempt_number", .int number), ("claim_id", .text claimId),
        ("worker_id", .text workerId)] =
      .ok [("attempt_number", .int number), ("claim_id", .text (strip claimId)),
        ("worker_id", .text (strip workerId))] := by
  have h₁ : safeEntry .taskClaimed ("attempt_number", .int number) =
      .ok ("attempt_number", .int number) := by
    simp only [safeEntry, except_bind_ok, exists_unit, requireText_ok, require_ok]
    refine ⟨"attempt_number", by decide, by decide +kernel, by decide, ?_⟩
    simp [hn]
  have h₂ : safeEntry .taskClaimed ("claim_id", .text claimId) =
      .ok ("claim_id", .text (strip claimId)) :=
    safeEntry_text (by decide) (by decide) (by decide +kernel) (by decide) (by decide) hc
  have h₃ : safeEntry .taskClaimed ("worker_id", .text workerId) =
      .ok ("worker_id", .text (strip workerId)) :=
    safeEntry_text (by decide) (by decide) (by decide +kernel) (by decide) (by decide) hw
  simp only [safeMetadata, mapEach, h₁, h₂, h₃, ok_bind]
  simp [eventMetadataFields, optionalEventMetadataFields]

/-- The task right after a claim. -/
theorem sound_claimed {e : TaskEvent} (hs : Sound t) (hq : t.status = .queued)
    (htask : a.taskId = t.id) (hnumber : a.number = t.attempts.length + 1) (hactive : a.isActive)
    (hevent : e.taskId = t.id) (hseq : e.sequence = t.events.length + 1)
    (hfresh : ∀ e' ∈ t.events, e'.transitionId ≠ e.transitionId) (now : DateTime) :
    Sound { t with attempts := t.attempts ++ [a], status := .running, updatedAt := now,
                   events := t.events ++ [e] } where
  attemptTask := List.forall_mem_append.2 ⟨hs.attemptTask, by simpa using htask⟩
  numbered := by
    rw [List.map_append, hs.numbered, List.map_singleton, hnumber, List.length_append,
      List.length_singleton, List.range'_concat, Nat.mul_comm, Nat.mul_one, Nat.add_comm]
  eventTask := List.forall_mem_append.2 ⟨hs.eventTask, by simpa using hevent⟩
  sequenced := by
    rw [List.map_append, hs.sequenced, List.map_singleton, hseq, List.length_append,
      List.length_singleton, List.range'_concat, Nat.mul_comm, Nat.mul_one, Nat.add_comm]
  distinct := by
    rw [List.map_append, List.map_singleton, List.nodup_append]
    refine ⟨hs.distinct, by simp, ?_⟩
    intro i hi j hj
    obtain ⟨e', he', rfl⟩ := List.mem_map.1 hi
    rw [List.mem_singleton.1 hj]
    exact hfresh e' he'
  active := by
    have hnone := hs.active
    rw [if_neg (by simp [hq, TaskStatus.Live])] at hnone
    rw [List.countP_append, hnone]
    simp [hactive, TaskStatus.Live]
  summary := fun h => by cases h

/-- A claim whose checks all pass returns. -/
theorem claim_returns {workerId claimId leaseToken : String} {leaseExpiresAt : DateTime}
    {e : TaskEvent} (hz : call.now.tzAware = true) (hq : t.status = .queued)
    (hdue : t.availableAt.instant ≤ call.now.instant) (hleft : t.attempts.length < t.maxAttempts)
    (ha : TaskAttempt.make
      { taskId := t.id, number := t.attempts.length + 1, workerId, claimId, leaseToken,
        leaseExpiresAt, id := call.attemptUuid, createdAt := call.now } = .ok a)
    (hblank : isBlank ("claim:" ++ a.claimId) = false)
    (he : t.Takes call ("claim:" ++ a.claimId) .taskClaimed [("attempt_number", .int a.number),
      ("claim_id", .text a.claimId), ("worker_id", .text a.workerId)] e)
    (hs : Sound { t with attempts := t.attempts ++ [a], status := .running,
                         updatedAt := call.now, events := t.events ++ [e] }) :
    claim workerId claimId leaseToken leaseExpiresAt call t =
      .ok a { t with attempts := t.attempts ++ [a], status := .running, updatedAt := call.now,
                     events := t.events ++ [e] } := by
  simp only [claim, bind_ok, exists_unit, lift_ok, requireUtc_ok, Option.some.injEq, get_ok,
    check_ok, modify_ok, appendEvent_ok, validateInvariants_ok, pure_ok, exists_eq_left,
    exists_and_left, and_assoc]
  exact ⟨_, rfl, hz, hq, hdue, hleft, a, ha, hblank, _, ⟨e, he, rfl⟩, checkInvariants_ok.2 hs, rfl,
    rfl⟩

/-- **A waiting task can be claimed.** The claim has to be well formed, due, and new to the log. -/
theorem claim_accepted (hs : Healthy t) (hq : t.status = .queued)
    {workerId claimId leaseToken : String} {leaseExpiresAt : DateTime}
    (hw : isBlank workerId = false) (hc : isBlank claimId = false)
    (hl : isBlank leaseToken = false) (hz : call.now.tzAware = true)
    (hz' : leaseExpiresAt.tzAware = true) (hdue : t.availableAt.instant ≤ call.now.instant)
    (hlt : call.now.instant < leaseExpiresAt.instant)
    (hfresh : ∀ e ∈ t.events, e.transitionId ≠ strip ("claim:" ++ strip claimId)) :
    ∃ t', Accepts t ⟨.claim workerId claimId leaseToken leaseExpiresAt, call⟩ t' := by
  have hblank : isBlank ("claim:" ++ strip claimId) = false :=
    isBlank_append_right (by rw [isBlank_strip, hc])
  obtain ⟨a, ha, hnumber, htask, hactive, hworker, hclaim⟩ :
      ∃ a, TaskAttempt.make
        { taskId := t.id, number := t.attempts.length + 1, workerId, claimId, leaseToken,
          leaseExpiresAt, id := call.attemptUuid, createdAt := call.now } = .ok a ∧
        a.number = t.attempts.length + 1 ∧ a.taskId = t.id ∧ a.isActive ∧
        a.workerId = strip workerId ∧ a.claimId = strip claimId :=
    ⟨_, (TaskAttempt.make_ok rfl).2 ⟨Nat.succ_pos _, hw, hc, hl, hz', hz, hlt, Int.le_refl _, rfl⟩,
      rfl, rfl, rfl, rfl, rfl⟩
  have hpositive : 0 < a.number := by omega
  have hmeta := claimed_metadata hpositive (hclaim ▸ isBlank_strip.trans hc)
    (hworker ▸ isBlank_strip.trans hw)
  rw [← hclaim] at hblank hfresh
  obtain ⟨e, he, hseq, hevent, hid⟩ :
      ∃ e, TaskEvent.make (t.nextEvent call (strip ("claim:" ++ a.claimId)) .taskClaimed
        [("attempt_number", .int a.number), ("claim_id", .text a.claimId),
          ("worker_id", .text a.workerId)]) = .ok e ∧
        e.sequence = t.events.length + 1 ∧ e.taskId = t.id ∧
        e.transitionId = strip (strip ("claim:" ++ a.claimId)) :=
    ⟨_, TaskEvent.make_ok.2 ⟨Nat.succ_pos _, by rwa [nextEvent, isBlank_strip], hz, _, hmeta, rfl⟩,
      rfl, rfl, rfl⟩
  rw [strip_strip] at hid
  have hsound := sound_claimed hs.sound hq htask hnumber hactive hevent hseq (hid ▸ hfresh) call.now
  exact ⟨_, map_ok.2 ⟨a, claim_returns hz hq hdue (hs.room (Or.inl hq)) ha hblank ⟨hfresh, he⟩
    hsound, rfl⟩⟩

/-- A well-formed claim that is due and new to the log is accepted. -/
def Claimable (t : Task) : Prop :=
  ∀ (call : Call) (workerId claimId leaseToken : String) (leaseExpiresAt : DateTime),
    isBlank workerId = false → isBlank claimId = false → isBlank leaseToken = false →
    call.now.tzAware = true → leaseExpiresAt.tzAware = true →
    t.availableAt.instant ≤ call.now.instant → call.now.instant < leaseExpiresAt.instant →
    (∀ e ∈ t.events, e.transitionId ≠ strip ("claim:" ++ strip claimId)) →
    ∃ t', Accepts t ⟨.claim workerId claimId leaseToken leaseExpiresAt, call⟩ t'

/-- **The life of a task.** Whatever accepted commands follow its creation, a task has one active
attempt while it is live and none otherwise, its attempts are numbered without gaps up to at most
`maxAttempts`, while it waits it has an attempt left and can be claimed, success and cancellation
are final, and a failure is left by a manual retry only. -/
theorem task_lifecycle (h : Reachable Created Accepts t) :
    (t.attempts.countP fun a => a.isActive) = (if t.status.Live then 1 else 0) ∧
    t.attempts.map TaskAttempt.number = List.range' 1 t.attempts.length ∧
    t.attempts.length ≤ t.maxAttempts ∧
    (t.status = .queued ∨ t.status = .retryWait → t.attempts.length < t.maxAttempts) ∧
    (t.status = .queued → Claimable t) ∧
    (t.status = .succeeded ∨ t.status = .cancelled →
      ∀ rs t', Steps Accepts t rs t' → t'.status = t.status) ∧
    (t.status = .failed → ∀ r t', Accepts t r t' → t'.status ≠ .failed →
      ∃ commandId, r.command = .requestManualRetry commandId) := by
  have hh := healthy_of_reachable h
  refine ⟨hh.sound.active, hh.sound.numbered, hh.bounded, hh.room, ?_, ?_, ?_⟩
  · intro hq call _ _ _ _ hw hc hl hz hz' hdue hlt hfresh
    exact claim_accepted hh hq hw hc hl hz hz' hdue hlt hfresh
  · intro hs rs t' hsteps
    refine final_of_steps ?_ hsteps
    rcases hs with hs | hs <;> rw [hs] <;> rfl
  · intro hs r t' hr hleft
    exact failed_left hr hs hleft

/-! ## Running commands -/

/-- The task after the requests, if it accepts them all. -/
def play : List Request → Task → Option Task
  | [], t => some t
  | r :: rs, t =>
    match execute r t with
    | .ok () t' => play rs t'
    | .error _ _ => none

theorem steps_of_play {rs : List Request} (h : play rs t = some t') : Steps Accepts t rs t' := by
  induction rs generalizing t with
  | nil =>
    cases h
    exact .nil _
  | cons r rs ih =>
    unfold play at h
    split at h
    · next hs => exact .cons hs (ih h)
    · cases h

theorem accepts_of_play {r : Request} (h : play [r] t = some t') : Accepts t r t' := by
  cases steps_of_play h with
  | cons hs hn =>
    cases hn
    exact hs

/-- A new task that may be attempted twice, after the requests. -/
def playNew (rs : List Request) : Option Task :=
  match create "report" "owner" "key" "input" 2 [] true 7 ⟨⟨0, true⟩, 0, 100⟩ with
  | .ok t => play rs t
  | .error _ => none

theorem run_of_playNew {rs : List Request} (h : playNew rs = some t) :
    ∃ t₀, Created t₀ ∧ Steps Accepts t₀ rs t := by
  unfold playNew at h
  split at h
  · next t₀ hc => exact ⟨t₀, ⟨_, _, _, _, _, _, _, _, _, hc⟩, steps_of_play h⟩
  · cases h

theorem reachable_of_playNew {rs : List Request} (h : playNew rs = some t) :
    Reachable Created Accepts t := by
  obtain ⟨t₀, hc, hsteps⟩ := run_of_playNew h
  exact ⟨t₀, rs, hc, hsteps⟩

/-- A call at time `n`, with ids of its own. -/
def callAt (n : Nat) : Call where
  now := ⟨n, true⟩
  attemptUuid := 10 + n
  eventUuid := 100 + n

/-- The first attempt: id 11, leased to `w1` until time 5. -/
def firstClaim : Request := ⟨.claim "w1" "c1" "tok1" ⟨5, true⟩, callAt 1⟩

def newTask : Task where
  taskType := "report"
  ownerSubject := "owner"
  idempotencyKey := "key"
  inputFingerprint := "input"
  maxAttempts := 2
  availableAt := ⟨0, true⟩
  id := 7
  createdAt := ⟨0, true⟩
  updatedAt := ⟨0, true⟩
  events :=
    [{ taskId := 7, sequence := 1, transitionId := "create:key", eventType := .taskCreated,
       metadata := [("task_type", .text "report")], createdAt := ⟨0, true⟩, id := 100 }]

def claimedTask : Task :=
  { newTask with
    status := .running
    updatedAt := ⟨1, true⟩
    attempts :=
      [{ taskId := 7, number := 1, workerId := "w1", claimId := "c1", leaseToken := "tok1",
         leaseExpiresAt := ⟨5, true⟩, id := 11, createdAt := ⟨1, true⟩ }]
    events := newTask.events ++
      [{ taskId := 7, sequence := 2, transitionId := "claim:c1", eventType := .taskClaimed,
         metadata := [("attempt_number", .int 1), ("claim_id", .text "c1"),
           ("worker_id", .text "w1")], createdAt := ⟨1, true⟩, id := 101 }] }

theorem newTask_created : Created newTask := by
  obtain ⟨t₀, hc, hsteps⟩ := run_of_playNew (by decide +kernel : playNew [] = some newTask)
  cases hsteps
  exact hc

theorem claimedTask_accepted : Accepts newTask firstClaim claimedTask :=
  accepts_of_play (by decide +kernel)

theorem claimedTask_reachable : Reachable Created Accepts claimedTask :=
  (Reachable.start newTask_created).next claimedTask_accepted

theorem task_lifecycle_claimed : (claimedTask.attempts.countP fun a => a.isActive) = 1 :=
  have hs : claimedTask.status.Live := by decide +kernel
  (task_lifecycle claimedTask_reachable).1.trans (if_pos hs)

end GoAgent.Tasks
