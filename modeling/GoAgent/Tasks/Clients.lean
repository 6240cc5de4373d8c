import GoAgent.Foundation.Transactions
import GoAgent.Tasks.RetryScheduling

/-!
# Clients of the task table

Requests, workers and schedulers use the task table at the same time. A command locks the row of its
task and reads it; it may ask for its receipt; it runs on the task it has read, and saves what that
leaves. A submission inserts its task and looks for the one that is there already if the insertion
is refused. A worker looks for a task to claim among those nobody has locked, and claims the one it
has locked.

**The table.** `TableSound` is on the rows alone: each was served by the service, one call after the
other, and no two have one id or one submission. `TableServes` answers one request at a time.

* `safe_saved`, `safe_submission`, … — a request answers when it commits, on the row it has read.
* `calls_in_turn` — the requests that run at the same time are answered as if one at a time.
* `submitted_once` — one submission, one task.
-/

namespace GoAgent.Tasks

open GoAgent.Foundation GoAgent.Tasks.Task GoAgent.Tasks.TaskAttempt TaskLifecycleService

/-! ## Requests -/

structure SubmitTaskCommand where
  taskType : String
  ownerSubject : String
  idempotencyKey : String
  inputFingerprint : String
  maxAttempts : Int
  displayMetadata : List (String × String)
  allowManualRetry : Bool

/-- What the clients ask. `locked` are the rows that others hold when a worker looks for a task. -/
inductive TaskCall
  | submit (command : SubmitTaskCommand) (taskId : UUID) (call : Call)
  | command (taskId : UUID) (r : Request)
  | claimNext (workerId claimId leaseToken : String) (leaseExpiresAt now : DateTime)
      (locked : UUID → Bool) (call : Call)

inductive TaskReply
  | submitted (t : Task)
  | done (t : Task)
  | idle
  | raised (e : TaskError)
  | refused

def Task.submissionKey (t : Task) : String × String × String :=
  (t.ownerSubject, t.taskType, t.idempotencyKey)

def Record.submissionKey (s : Record) : String × String × String := s.task.submissionKey

def SubmitTaskCommand.create (c : SubmitTaskCommand) (taskId : UUID) (call : Call) :
    Except TaskError Task :=
  Task.create c.taskType c.ownerSubject c.idempotencyKey c.inputFingerprint c.maxAttempts
    c.displayMetadata c.allowManualRetry taskId call

def findSubmission (key : String × String × String) (records : List Record) : Option Record :=
  lookup Record.submissionKey key records

/-! ## Programs -/

def Record.Claimable (s : Record) (now : DateTime) : Prop :=
  s.task.status = .queued ∧ s.task.availableAt.instant ≤ now.instant

instance (s : Record) (now : DateTime) : Decidable (s.Claimable now) := by
  unfold Record.Claimable
  infer_instance

def claimOrder (s : Record) : Int ×ₗ Int ×ₗ UUID :=
  toLex (s.task.availableAt.instant, toLex (s.task.createdAt.instant, s.taskId))

abbrev TaskProgram := Program UUID (List Record) TaskReply

/-! `accepts` says which rows the columns take. -/

namespace PostgresTaskRepository

variable (accepts : Record → Bool)

def insertSubmission (t : Task) (records : List Record) : Option (List Record) :=
  if t.id ∉ records.map Record.taskId ∧ t.submissionKey ∉ records.map Record.submissionKey ∧
      accepts ⟨t, []⟩ = true then
    some (records ++ [⟨t, []⟩])
  else none

/-- `create_or_get_submission`. A row that the columns do not take is no `IntegrityError`. -/
def createOrGetSubmission (t : Task) (persisted : Task → TaskProgram) : TaskProgram :=
  .commit (insertSubmission accepts t) (persisted t) <|
    if accepts ⟨t, []⟩ = true then
      .read fun records =>
        match findSubmission t.submissionKey records with
        | none => .answer .refused
        | some existing => persisted existing.task
    else .answer .refused

def save (t : Task) (receipt : Option TaskCommandReceipt) (records : List Record) :
    Option (List Record) :=
  match lookup Record.taskId t.id records with
  | none => none
  | some record =>
    if accepts ⟨t, withReceipt record.receipts receipt⟩ = true then
      some (records.map fun s =>
        if s.taskId = t.id then ⟨t, withReceipt s.receipts receipt⟩ else s)
    else none

end PostgresTaskRepository

open PostgresTaskRepository

namespace TaskProgram

variable (accepts : Record → Bool)

/-- `_task` -/
def task (taskId : UUID) (found : Record → TaskProgram) : TaskProgram :=
  .lock taskId <| .read fun records =>
    match lookup Record.taskId taskId records with
    | none => .answer (.raised (.notFound "任务不存在。"))
    | some s => found s

def saved {α : Type} (s : Record) (method : TaskM α) (receipt : Option TaskCommandReceipt) :
    TaskProgram :=
  match perform method s.task with
  | .error e => .answer (.raised e)
  | .ok (_, t) => .commit (save accepts t receipt) (.answer (.done t)) (.answer .refused)

/-- `has_processed_command`, and the command if it was not. -/
def once (s : Record) (commandType commandId : String) (method : TaskM Unit) : TaskProgram :=
  match requireText commandId "命令标识" with
  | .error e => .answer (.raised e)
  | .ok command =>
    .read fun records =>
      if ⟨commandType, command⟩ ∈
          (lookup Record.taskId s.taskId records).elim [] Record.receipts then
        .answer (.done s.task)
      else TaskProgram.saved accepts s method (some ⟨commandType, command⟩)

def claim (s : Record) (workerId claimId leaseToken : String) (leaseExpiresAt : DateTime)
    (call : Call) : TaskProgram :=
  match s.task.findAttemptByClaim workerId claimId with
  | .error e => .answer (.raised e)
  | .ok (some existing) =>
    match requireText leaseToken "租约令牌" with
    | .error e => .answer (.raised e)
    | .ok token =>
      if existing.leaseToken = token then .answer (.done s.task)
      else .answer (.raised (.idempotencyConflict "同一领取标识使用了不同的租约令牌。"))
  | .ok none =>
    TaskProgram.saved accepts s (Task.claim workerId claimId leaseToken leaseExpiresAt call) none

/-- A command on a task that was read. -/
def run (r : Request) (s : Record) : TaskProgram :=
  match r.command with
  | .claim workerId claimId leaseToken leaseExpiresAt =>
    TaskProgram.claim accepts s workerId claimId leaseToken leaseExpiresAt r.call
  | .renewLease attemptId leaseToken renewalSequence leaseExpiresAt =>
    TaskProgram.saved accepts s
      (Task.renewLease attemptId leaseToken renewalSequence leaseExpiresAt r.call) none
  | .requestCancel commandId =>
    TaskProgram.once accepts s "cancel" commandId (requestCancel commandId r.call)
  | .confirmCancel attemptId leaseToken =>
    TaskProgram.saved accepts s (confirmCancel attemptId leaseToken r.call) none
  | .complete attemptId leaseToken fingerprint summary =>
    TaskProgram.saved accepts s (Task.complete attemptId leaseToken fingerprint summary r.call) none
  | .fail attemptId leaseToken category code fingerprint retryAt =>
    TaskProgram.saved accepts s
      (Task.fail attemptId leaseToken category code fingerprint retryAt r.call) none
  | .requeueDue commandId =>
    TaskProgram.once accepts s "requeue" commandId (Task.requeueDue commandId r.call)
  | .requestManualRetry commandId =>
    TaskProgram.once accepts s "manual-retry" commandId (requestManualRetry commandId r.call)
  | .recoverExpiredAttempt commandId retryAt attemptId =>
    TaskProgram.once accepts s "recover" commandId
      (recoverExpiredAttempt commandId retryAt attemptId r.call)

def submit (c : SubmitTaskCommand) (taskId : UUID) (call : Call) : TaskProgram :=
  match c.create taskId call with
  | .error e => .answer (.raised e)
  | .ok t =>
    createOrGetSubmission accepts t fun persisted =>
      if persisted.inputFingerprint = t.inputFingerprint then .answer (.submitted persisted)
      else .answer (.raised (.idempotencyConflict "同一幂等键使用了不同的输入指纹。"))

/-- `get_next_queued_for_update`: the first of the rows that are not locked, which a lock finds as
the query did or not at all. -/
def getNextQueuedForUpdate (now : DateTime) (locked : UUID → Bool)
    (found : Record → TaskProgram) : TaskProgram :=
  .read fun records =>
    match (orderedBy claimOrder
        (records.filter fun s => s.Claimable now ∧ locked s.taskId = false)).head? with
    | none => .answer .idle
    | some s =>
      .lock s.taskId <| .read fun records =>
        match lookup Record.taskId s.taskId records with
        | none => .answer .idle
        | some s => if s.Claimable now then found s else .answer .idle

end TaskProgram

def serveTask (accepts : Record → Bool) : TaskCall → TaskProgram
  | .submit c taskId call => TaskProgram.submit accepts c taskId call
  | .command taskId r => TaskProgram.task taskId (TaskProgram.run accepts r)
  | .claimNext workerId claimId leaseToken leaseExpiresAt now locked call =>
    TaskProgram.getNextQueuedForUpdate now locked fun s => TaskProgram.task s.taskId
      (TaskProgram.run accepts ⟨.claim workerId claimId leaseToken leaseExpiresAt, call⟩)

/-! ## One request at a time -/

def commandOne (accepts : Record → Bool) (taskId : UUID) (r : Request) (records : List Record) :
    TaskReply × List Record :=
  match lookup Record.taskId taskId records with
  | none => (.raised (.notFound "任务不存在。"), records)
  | some s =>
    match handle r s with
    | .error e _ => (.raised e, records)
    | .ok () s' =>
      if accepts s' = true then (.done s'.task, carryOut records (taskId, r))
      else (.refused, records)

def submitOne (accepts : Record → Bool) (c : SubmitTaskCommand) (taskId : UUID) (call : Call)
    (records : List Record) : TaskReply × List Record :=
  match c.create taskId call with
  | .error e => (.raised e, records)
  | .ok t =>
    match findSubmission t.submissionKey records with
    | some existing =>
      if accepts ⟨t, []⟩ = false then (.refused, records)
      else if existing.task.inputFingerprint = t.inputFingerprint then
        (.submitted existing.task, records)
      else (.raised (.idempotencyConflict "同一幂等键使用了不同的输入指纹。"), records)
    | none =>
      if t.id ∉ records.map Record.taskId ∧ accepts ⟨t, []⟩ = true then
        (.submitted t, records ++ [⟨t, []⟩])
      else (.refused, records)

/-- What a request is answered, and what it leaves. -/
def TableServes (accepts : Record → Bool) (records : List Record) (x : TaskCall × TaskReply)
    (records' : List Record) : Prop :=
  match x.1 with
  | .submit c taskId call => submitOne accepts c taskId call records = (x.2, records')
  | .command taskId r => commandOne accepts taskId r records = (x.2, records')
  | .claimNext workerId claimId leaseToken leaseExpiresAt now _ call =>
    x.2 = .idle ∧ records' = records ∨ ∃ s ∈ records, s.Claimable now ∧
      commandOne accepts s.taskId ⟨.claim workerId claimId leaseToken leaseExpiresAt, call⟩ records =
        (x.2, records')

/-! ## The table -/

structure TableSound (accepts : Record → Bool) (records : List Record) : Prop
    extends Stored records where
  keys : (records.map Record.submissionKey).Nodup
  accepted : ∀ s ∈ records, accepts s = true

/-- A request answers when it commits, and leaves the rows alone that it has not locked. -/
def taskContract (accepts : Record → Bool) :
    Contract UUID (List Record) TaskCall TaskReply where
  invariant := TableSound accepts
  guarantee q a held records records' :=
    (∃ reply, a = some reply ∧ TableServes accepts records (q, reply) records') ∧
      ∀ taskId, taskId ∉ held → ∀ s, lookup Record.taskId taskId records = some s →
        lookup Record.taskId taskId records' = some s
  answers q reply records := TableServes accepts records (q, reply) records

section Service

variable {accepts : Record → Bool} {records records' : List Record} {s s' : Record} {r : Request}
  {taskId : UUID} {t : Task} {c : SubmitTaskCommand} {call : Call} {q : TaskCall}
  {reply : TaskReply} {held : List UUID} {e : TaskError} {receipt : Option TaskCommandReceipt}

/-! ### Commands on the table -/

theorem submissionKey_of_effect {t' : Task} {command : TaskCommand}
    (h : Effect call t command t') : t'.submissionKey = t.submissionKey := by
  cases h <;> rfl

theorem inputFingerprint_of_effect {t' : Task} {command : TaskCommand}
    (h : Effect call t command t') : t'.inputFingerprint = t.inputFingerprint := by
  cases h <;> rfl

/-- The columns that identify a submission. -/
def Record.submission (s : Record) : UUID × (String × String × String) × String :=
  (s.taskId, s.submissionKey, s.task.inputFingerprint)

theorem submission_respond : (respond s r).submission = s.submission := by
  rcases accepts_of_serves (rfl : Serves s r (respond s r)) with hsame | ⟨haccepts, -⟩
  · rw [hsame]
  · have heffect := effect_of_execute haccepts
    exact Prod.ext (id_of_effect heffect) (Prod.ext (submissionKey_of_effect heffect)
      (inputFingerprint_of_effect heffect))

theorem submissions_carryOut {x : Transaction} :
    (carryOut records x).map Record.submission = records.map Record.submission := by
  unfold carryOut
  rw [List.map_map]
  apply List.map_congr_left
  intro s _
  rw [Function.comp_apply]
  split_ifs
  · exact submission_respond
  · rfl

theorem keys_carryOut {x : Transaction} :
    (carryOut records x).map Record.submissionKey = records.map Record.submissionKey := by
  have h := congrArg (List.map fun c => c.2.1) (@submissions_carryOut records x)
  rw [List.map_map, List.map_map] at h
  exact h

theorem respond_of_handle {u : Unit} (h : handle r s = .ok u s') : respond s r = s' := by
  rw [respond, h]

/-- A row that was read is the row of its task. -/
theorem map_row {f g : Record → Record} (hn : (records.map Record.taskId).Nodup)
    (hs : lookup Record.taskId taskId records = some s) (hfg : f s = g s) :
    (records.map fun s => if s.taskId = taskId then f s else s) =
      records.map fun s => if s.taskId = taskId then g s else s := by
  apply List.map_congr_left
  intro s' hs'
  by_cases hid : s'.taskId = taskId
  · have hsame := lookup_of_mem hn hs'
    rw [hid, hs, Option.some.injEq] at hsame
    rw [if_pos hid, if_pos hid, ← hsame, hfg]
  · rw [if_neg hid, if_neg hid]

theorem carryOut_of_idle (hn : (records.map Record.taskId).Nodup)
    (hs : lookup Record.taskId taskId records = some s) (h : respond s r = s) :
    carryOut records (taskId, r) = records := by
  have hmap := @map_row records s taskId (fun s => respond s r) id hn hs h
  rw [carryOut, hmap]
  simp

theorem tableSound_carryOut (h : TableSound accepts records)
    (hs : lookup Record.taskId taskId records = some s) (haccepts : accepts (respond s r) = true) :
    TableSound accepts (carryOut records (taskId, r)) where
  toStored := stored_carryOut h.toStored
  keys := by
    rw [keys_carryOut]
    exact h.keys
  accepted := by
    intro s' hs'
    obtain ⟨s₀, hs₀, rfl⟩ := List.mem_map.1 hs'
    split_ifs with hid
    · have hsame := lookup_of_mem h.distinct hs₀
      rw [hid, hs, Option.some.injEq] at hsame
      exact hsame ▸ haccepts
    · exact h.accepted s₀ hs₀

/-- A command leaves the table, or is carried out on the row of its task. -/
theorem commandOne_store (hone : commandOne accepts taskId r records = (reply, records')) :
    records' = records ∨ ∃ s, lookup Record.taskId taskId records = some s ∧
      accepts (respond s r) = true ∧ records' = carryOut records (taskId, r) := by
  unfold commandOne at hone
  split at hone
  · exact Or.inl (Prod.mk.inj hone).2.symm
  · next s hs =>
    split at hone
    · exact Or.inl (Prod.mk.inj hone).2.symm
    · next s' hhandle =>
      split_ifs at hone with haccepts
      · have hrow : accepts (respond s r) = true := by rw [respond_of_handle hhandle, haccepts]
        exact Or.inr ⟨s, hs, hrow, (Prod.mk.inj hone).2.symm⟩
      · exact Or.inl (Prod.mk.inj hone).2.symm

theorem tableSound_commandOne (h : TableSound accepts records)
    (hone : commandOne accepts taskId r records = (reply, records')) :
    TableSound accepts records' := by
  rcases commandOne_store hone with rfl | ⟨s, hs, haccepts, rfl⟩
  · exact h
  · exact tableSound_carryOut h hs haccepts

theorem tableSound_insert (h : TableSound accepts records) (ht : Created t)
    (hid : t.id ∉ records.map Record.taskId)
    (hkey : t.submissionKey ∉ records.map Record.submissionKey)
    (haccepts : accepts ⟨t, []⟩ = true) : TableSound accepts (records ++ [⟨t, []⟩]) where
  served := by
    intro s hs
    rcases List.mem_append.1 hs with hs | hs
    · exact h.served s hs
    · rw [List.mem_singleton.1 hs]
      exact .start ⟨ht, rfl⟩
  distinct := by
    rw [List.map_append, List.nodup_append]
    refine ⟨h.distinct, List.nodup_singleton _, fun x hx y hy hxy => ?_⟩
    obtain rfl := List.mem_singleton.1 hy
    rw [hxy] at hx
    exact hid hx
  keys := by
    rw [List.map_append, List.nodup_append]
    refine ⟨h.keys, List.nodup_singleton _, fun x hx y hy hxy => ?_⟩
    obtain rfl := List.mem_singleton.1 hy
    rw [hxy] at hx
    exact hkey hx
  accepted := by
    intro s hs
    rcases List.mem_append.1 hs with hs | hs
    · exact h.accepted s hs
    · rw [List.mem_singleton.1 hs]
      exact haccepts

theorem created_of_command (h : c.create taskId call = .ok t) : Created t :=
  ⟨_, _, _, _, _, _, _, _, _, h⟩

/-! ### A command answers when it commits -/

/-- What the command on the row is answered is an answer to the request. -/
def Asks (accepts : Record → Bool) (q : TaskCall) (taskId : UUID) (r : Request) (s : Record) :
    Prop :=
  ∀ records reply records', lookup Record.taskId taskId records = some s →
    commandOne accepts taskId r records = (reply, records') →
      TableServes accepts records (q, reply) records'

theorem safe_raised (hasks : Asks accepts q taskId r s)
    (hs : lookup Record.taskId taskId records = some s) (h : handle r s = .error e s') :
    (taskContract accepts).Safe q (.answer (.raised e)) held records := by
  apply hasks records _ _ hs
  simp only [commandOne, hs, h]

theorem safe_done (hasks : Asks accepts q taskId r s) (hsound : TableSound accepts records)
    (hs : lookup Record.taskId taskId records = some s) (h : handle r s = .ok () s) :
    (taskContract accepts).Safe q (.answer (.done s.task)) held records := by
  apply hasks records _ _ hs
  have hidle := carryOut_of_idle hsound.distinct hs (respond_of_handle h)
  simp only [commandOne, hs, h, hsound.accepted s (mem_of_lookup hs), if_true, hidle]

/-- The row of a task that is locked stays as it is. -/
theorem row_later (h : (taskContract accepts).Later held records records') (hheld : taskId ∈ held)
    (hs : lookup Record.taskId taskId records = some s) :
    lookup Record.taskId taskId records' = some s :=
  h.keeps (P := fun records => lookup Record.taskId taskId records = some s) hheld
    (fun _ _ _ _ _ hfree _ _ hg hs => hg.2 taskId hfree s hs) hs

theorem safe_saved {α : Type} {method : TaskM α} (hasks : Asks accepts q taskId r s)
    (hheld : taskId ∈ held) (hs : lookup Record.taskId taskId records = some s)
    (hok : ∀ x t, method s.task = .ok x t →
      handle r s = .ok () ⟨t, withReceipt s.receipts receipt⟩)
    (herror : ∀ e t, method s.task = .error e t → ∃ s', handle r s = .error e s') :
    (taskContract accepts).Safe q (TaskProgram.saved accepts s method receipt) held records := by
  unfold TaskProgram.saved perform
  cases hmethod : method s.task with
  | error e t =>
    obtain ⟨s', hs'⟩ := herror e t hmethod
    exact safe_raised hasks hs hs'
  | ok x t =>
    have hhandle := hok x t hmethod
    have hid : t.id = taskId := by
      have hrespond := @taskId_respond s r
      rw [respond_of_handle hhandle] at hrespond
      exact hrespond.trans (key_of_lookup hs)
    intro records₁ hlater hsound
    have hs₁ := row_later hlater hheld hs
    have hone : commandOne accepts taskId r records₁ =
        if accepts ⟨t, withReceipt s.receipts receipt⟩ = true then
          (.done t, carryOut records₁ (taskId, r)) else (.refused, records₁) := by
      simp only [commandOne, hs₁, hhandle]
    constructor
    · intro records₂ hw
      simp only [PostgresTaskRepository.save, hid, hs₁] at hw
      split_ifs at hw with haccepts
      rw [if_pos haccepts] at hone
      have hmap : records₂ = carryOut records₁ (taskId, r) := by
        rw [← Option.some.inj hw]
        exact map_row hsound.distinct hs₁ (respond_of_handle hhandle).symm
      subst hmap
      refine ⟨tableSound_commandOne hsound hone, ⟨⟨_, rfl, hasks _ _ _ hs₁ hone⟩, ?_⟩,
        fun hnone => absurd hnone (Option.some_ne_none _)⟩
      intro j hj row hrow
      have hne : taskId ≠ j := fun heq => hj (heq ▸ hheld)
      rw [lookup_carryOut_ne (x := (taskId, r)) hne]
      exact hrow
    · intro hw
      simp only [PostgresTaskRepository.save, hid, hs₁] at hw
      split_ifs at hw with haccepts
      rw [if_neg haccepts] at hone
      exact hasks _ _ _ hs₁ hone

theorem saved_of_error {α : Type} {method : TaskM α} (h : method s.task = .error e t) :
    TaskLifecycleService.saved method receipt s = .error e s := by
  have hperform : perform method s.task = .error e := by rw [perform, h]
  simp [TaskLifecycleService.saved, bind_error, lift_error, hperform]

theorem saved_of_ok {α : Type} {method : TaskM α} {x : α} (h : method s.task = .ok x t) :
    TaskLifecycleService.saved method receipt s =
      .ok x ⟨t, withReceipt s.receipts receipt⟩ :=
  saved_ok.2 ⟨t, h, rfl⟩

/-- A command that is the method, saved. -/
theorem safe_saved_plain {α : Type} {method : TaskM α} (hasks : Asks accepts q taskId r s)
    (hheld : taskId ∈ held) (hs : lookup Record.taskId taskId records = some s)
    (hr : handle r s = discard (TaskLifecycleService.saved method none) s) :
    (taskContract accepts).Safe q (TaskProgram.saved accepts s method none) held records := by
  refine safe_saved hasks hheld hs (fun x t h => ?_) fun e t h => ⟨s, ?_⟩
  · rw [hr]
    exact discard_ok.2 ⟨x, saved_of_ok h⟩
  · rw [hr]
    exact discard_error.2 (saved_of_error h)

theorem safe_once {commandType commandId : String} {method : TaskM Unit}
    (hasks : Asks accepts q taskId r s) (hheld : taskId ∈ held)
    (hs : lookup Record.taskId taskId records = some s)
    (hr : handle r s = TaskLifecycleService.once commandType commandId method s) :
    (taskContract accepts).Safe q (TaskProgram.once accepts s commandType commandId method)
      held records := by
  unfold TaskProgram.once
  cases hid : requireText commandId "命令标识" with
  | error e =>
    refine @safe_raised _ _ s s _ _ _ _ _ hasks hs ?_
    rw [hr]
    simp [TaskLifecycleService.once, bind_error, lift_error, hid]
  | ok command =>
    intro records₁ hlater hsound
    have hs₁ := row_later hlater hheld hs
    have hreceipts : (lookup Record.taskId s.taskId records₁).elim [] Record.receipts =
        s.receipts := by
      rw [key_of_lookup hs, hs₁]
      rfl
    have honce : handle r s = if ⟨commandType, command⟩ ∈ s.receipts then .ok () s
        else TaskLifecycleService.saved method (some ⟨commandType, command⟩) s := by
      rw [hr, TaskLifecycleService.once, hid]
      show (if _ then _ else _ : ServiceM Unit) s = _
      split_ifs <;> rfl
    simp only [hreceipts]
    split_ifs with hmem
    · exact safe_done hasks hsound hs₁ (honce.trans (if_pos hmem))
    · rw [if_neg hmem] at honce
      refine safe_saved hasks hheld hs₁ (fun x t h => ?_) fun e t h => ⟨s, ?_⟩
      · rw [honce]
        exact saved_of_ok h
      · rw [honce]
        exact saved_of_error h

theorem safe_claim {workerId claimId leaseToken : String} {leaseExpiresAt : DateTime}
    (hasks : Asks accepts q taskId r s) (hsound : TableSound accepts records)
    (hheld : taskId ∈ held) (hs : lookup Record.taskId taskId records = some s)
    (hr : handle r s =
      discard (TaskLifecycleService.claim workerId claimId leaseToken leaseExpiresAt call) s) :
    (taskContract accepts).Safe q
      (TaskProgram.claim accepts s workerId claimId leaseToken leaseExpiresAt call)
      held records := by
  unfold TaskProgram.claim
  cases hfind : s.task.findAttemptByClaim workerId claimId with
  | error e =>
    refine @safe_raised _ _ s s _ _ _ _ _ hasks hs ?_
    rw [hr, discard_error]
    simp [TaskLifecycleService.claim, bind_error, lift_error, hfind]
  | ok found =>
    have hfound := hfind
    simp only [findAttemptByClaim, except_bind_ok, requireText_ok, except_pure_ok,
      exists_eq_left, exists_and_left, and_assoc] at hfound
    obtain ⟨hw, hc, hfound⟩ := hfound
    cases found with
    | none =>
      refine safe_saved hasks hheld hs (fun x t h => ?_) fun e t h => ⟨s, ?_⟩
      · rw [hr]
        exact discard_ok.2 ⟨x, claim_ok.2 ⟨hw, hc, Or.inr ⟨hfound, t, h, rfl⟩⟩⟩
      · rw [hr, discard_error]
        simp [TaskLifecycleService.claim, bind_error, hfind, saved_of_error h]
    | some existing =>
      cases htoken : requireText leaseToken "租约令牌" with
      | error e =>
        refine @safe_raised _ _ s s _ _ _ _ _ hasks hs ?_
        rw [hr, discard_error]
        simp [TaskLifecycleService.claim, bind_error, lift_error, hfind, htoken]
      | ok token =>
        obtain ⟨hl, rfl⟩ := requireText_ok.1 htoken
        dsimp only
        split_ifs with hsame
        · refine safe_done hasks hsound hs ?_
          rw [hr]
          exact discard_ok.2 ⟨existing, claim_ok.2 ⟨hw, hc, Or.inl ⟨hfound, hl, hsame, rfl⟩⟩⟩
        · refine @safe_raised _ _ s s _ _ _ _ _ hasks hs ?_
          rw [hr, discard_error]
          refine bind_error.2 (Or.inr ⟨s, s, rfl, bind_error.2 (Or.inr ⟨some existing, s,
            lift_ok.2 ⟨hfind, rfl⟩, bind_error.2 (Or.inr ⟨_, s, lift_ok.2 ⟨htoken, rfl⟩, ?_⟩)⟩)⟩)
          exact bind_error.2 (Or.inl (check_error.2 ⟨hsame, rfl, rfl⟩))

/-- **A command** on the row that was read. -/
theorem safe_run (hasks : Asks accepts q taskId r s) (hsound : TableSound accepts records)
    (hheld : taskId ∈ held) (hs : lookup Record.taskId taskId records = some s) :
    (taskContract accepts).Safe q (TaskProgram.run accepts r s) held records := by
  obtain ⟨command, call⟩ := r
  cases command with
  | claim => exact safe_claim hasks hsound hheld hs rfl
  | renewLease => exact safe_saved_plain hasks hheld hs rfl
  | confirmCancel | complete | fail =>
    refine safe_saved hasks hheld hs (fun x t h => ?_) fun e t h => ⟨s, ?_⟩
    · exact saved_of_ok h
    · exact saved_of_error h
  | requestCancel | requeueDue | requestManualRetry | recoverExpiredAttempt =>
    exact safe_once hasks hheld hs rfl

/-- `_task`, and what follows it. -/
theorem safe_task {found : Record → TaskProgram}
    (hmissing : ∀ records', (taskContract accepts).Later held records records' →
      lookup Record.taskId taskId records' = none →
      TableServes accepts records' (q, .raised (.notFound "任务不存在。")) records')
    (h : ∀ records' s, (taskContract accepts).Later held records records' →
      TableSound accepts records' → lookup Record.taskId taskId records' = some s →
      (taskContract accepts).Safe q (found s) (taskId :: held) records') :
    (taskContract accepts).Safe q (TaskProgram.task taskId found) held records := by
  intro records₁ hlock _ records₂ hlater hsound
  cases hs : lookup Record.taskId taskId records₂ with
  | none =>
    simp only [hs]
    exact hmissing records₂ (hlock.trans hlater.unlock) hs
  | some s =>
    simp only [hs]
    exact h records₂ s (hlock.trans hlater.unlock) hsound hs

theorem safe_command :
    (taskContract accepts).Safe (.command taskId r)
      (TaskProgram.task taskId (TaskProgram.run accepts r)) held records := by
  refine safe_task (fun records _ hnone => ?_) fun records s _ hsound hs =>
    safe_run (fun _ _ _ _ hone => hone) hsound List.mem_cons_self hs
  show commandOne accepts taskId r records = _
  simp only [commandOne, hnone]

/-- **A worker that looks for a task** claims one that was queued and due. -/
theorem safe_claimNext {workerId claimId leaseToken : String} {leaseExpiresAt now : DateTime}
    {locked : UUID → Bool} :
    (taskContract accepts).Safe
      (.claimNext workerId claimId leaseToken leaseExpiresAt now locked call)
      (TaskProgram.getNextQueuedForUpdate now locked fun s => TaskProgram.task s.taskId
        (TaskProgram.run accepts ⟨.claim workerId claimId leaseToken leaseExpiresAt, call⟩))
      held records := by
  intro records₁ _ _
  dsimp only
  split
  · exact Or.inl ⟨rfl, rfl⟩
  next found _ =>
  intro records₂ _ _ records₃ _ hsound
  cases hs : lookup Record.taskId found.taskId records₃ with
  | none =>
    simp only [hs]
    exact Or.inl ⟨rfl, rfl⟩
  | some s =>
    simp only [hs]
    split_ifs with hclaimable
    · have hkey := key_of_lookup hs
      have hs' : lookup Record.taskId s.taskId records₃ = some s := hkey ▸ hs
      refine safe_task (fun records hlater hnone => ?_) fun records s' hlater hsound' hrow => ?_
      · have hsame := row_later hlater (hkey ▸ List.mem_cons_self) hs'
        exact absurd (hnone.symm.trans hsame) (Option.some_ne_none s).symm
      · have hsame := row_later hlater (hkey ▸ List.mem_cons_self) hs'
        obtain rfl := Option.some.inj (hsame.symm.trans hrow)
        refine safe_run ?_ hsound' List.mem_cons_self hrow
        exact fun _ _ _ hrow' hone => Or.inr ⟨s, mem_of_lookup hrow', hclaimable, hone⟩
    · exact Or.inl ⟨rfl, rfl⟩

/-! ### A submission answers with the task that is there -/

/-- A submission leaves the table, or adds its task. -/
theorem submitOne_store (hone : submitOne accepts c taskId call records = (reply, records')) :
    records' = records ∨ ∃ t, c.create taskId call = .ok t ∧
      t.id ∉ records.map Record.taskId ∧ t.submissionKey ∉ records.map Record.submissionKey ∧
      accepts ⟨t, []⟩ = true ∧ records' = records ++ [⟨t, []⟩] := by
  unfold submitOne at hone
  split at hone
  · exact Or.inl (Prod.mk.inj hone).2.symm
  · next t ht =>
    split at hone
    · split_ifs at hone
      · exact Or.inl (Prod.mk.inj hone).2.symm
      · exact Or.inl (Prod.mk.inj hone).2.symm
      · exact Or.inl (Prod.mk.inj hone).2.symm
    · next hnone =>
      split_ifs at hone with hfree
      · have hkey : t.submissionKey ∉ records.map Record.submissionKey :=
          lookup_eq_none_iff.1 hnone
        exact Or.inr ⟨t, ht, hfree.1, hkey, hfree.2, (Prod.mk.inj hone).2.symm⟩
      · exact Or.inl (Prod.mk.inj hone).2.symm

/-- No request takes a submission out of the table. -/
theorem submissions_of_serves {x : TaskCall × TaskReply}
    (h : TableServes accepts records x records') :
    records.map Record.submission <+: records'.map Record.submission := by
  have hcommand {taskId : UUID} {r : Request} {reply : TaskReply}
      (h : commandOne accepts taskId r records = (reply, records')) :
      records.map Record.submission <+: records'.map Record.submission := by
    rcases commandOne_store h with rfl | ⟨s, -, -, rfl⟩
    · exact List.prefix_rfl
    · rw [submissions_carryOut]
  obtain ⟨q, reply⟩ := x
  cases q with
  | command => exact hcommand h
  | claimNext =>
    rcases h with ⟨-, rfl⟩ | ⟨s, -, -, h⟩
    · exact List.prefix_rfl
    · exact hcommand h
  | submit c taskId call =>
    rcases submitOne_store h with rfl | ⟨t, -, -, -, -, rfl⟩
    · exact List.prefix_rfl
    · rw [List.map_append]
      exact List.prefix_append _ _

theorem taken_of_serves {x : TaskCall × TaskReply} (h : TableServes accepts records x records')
    (ht : t.id ∈ records.map Record.taskId ∨
      t.submissionKey ∈ records.map Record.submissionKey) :
    t.id ∈ records'.map Record.taskId ∨ t.submissionKey ∈ records'.map Record.submissionKey := by
  have hkept := submissions_of_serves h
  have hids := (hkept.map fun c => c.1).subset
  have hkeys := (hkept.map fun c => c.2.1).subset
  simp only [List.map_map] at hids hkeys
  exact ht.imp (fun h => hids h) fun h => hkeys h

theorem safe_submission :
    (taskContract accepts).Safe (.submit c taskId call)
      (TaskProgram.submit accepts c taskId call) held records := by
  unfold TaskProgram.submit
  cases ht : c.create taskId call with
  | error e =>
    show submitOne accepts c taskId call records = _
    simp only [submitOne, ht]
  | ok t =>
    intro records₁ _ hsound
    constructor
    · intro records₂ hw
      unfold PostgresTaskRepository.insertSubmission at hw
      split_ifs at hw with hok
      obtain rfl := Option.some.inj hw
      obtain ⟨hid, hkey, haccepts⟩ := hok
      have hnone : findSubmission t.submissionKey records₁ = none := lookup_eq_none_iff.2 hkey
      refine ⟨tableSound_insert hsound (created_of_command ht) hid hkey haccepts,
        ⟨⟨.submitted t, ?_, ?_⟩, ?_⟩, fun hnone => ?_⟩
      · simp [Program.answer?]
      · show submitOne accepts c taskId call records₁ = _
        simp only [submitOne, ht, hnone]
        rw [if_pos ⟨hid, haccepts⟩]
      · intro j _ row hrow
        rw [lookup_append, hrow]
        rfl
      · simp [Program.answer?] at hnone
    · intro hw
      unfold PostgresTaskRepository.insertSubmission at hw
      split_ifs at hw with hok
      split_ifs with haccepts
      · have htaken : t.id ∈ records₁.map Record.taskId ∨
            t.submissionKey ∈ records₁.map Record.submissionKey := by
          by_contra hfree
          exact hok ⟨fun h => hfree (Or.inl h), fun h => hfree (Or.inr h), haccepts⟩
        intro records₂ hlater hsound₂
        have htaken₂ := hlater.stays (P := fun records => t.id ∈ records.map Record.taskId ∨
          t.submissionKey ∈ records.map Record.submissionKey)
          (fun _ _ _ _ _ _ _ ⟨⟨_, _, h⟩, _⟩ htaken => taken_of_serves h htaken) htaken
        cases hfind : findSubmission t.submissionKey records₂ with
        | none =>
          have hid := htaken₂.resolve_right (lookup_eq_none_iff.1 hfind)
          simp only [hfind]
          show submitOne accepts c taskId call records₂ = _
          simp only [submitOne, ht, hfind]
          rw [if_neg fun h => h.1 hid]
        | some existing =>
          simp only [hfind]
          have hone : submitOne accepts c taskId call records₂ =
              if existing.task.inputFingerprint = t.inputFingerprint then
                (.submitted existing.task, records₂)
              else (.raised (.idempotencyConflict "同一幂等键使用了不同的输入指纹。"), records₂) := by
            simp [submitOne, ht, hfind, haccepts]
          split_ifs at hone ⊢ with hsame
          · exact hone
          · exact hone
      · show submitOne accepts c taskId call records₁ = _
        rw [Bool.not_eq_true] at haccepts
        simp only [submitOne, ht]
        split
        · rw [if_pos haccepts]
        · rw [if_neg fun h => absurd (haccepts.symm.trans h.2) Bool.false_ne_true]

/-- **Every request is served within the contract.** -/
theorem serves_tasks : Foundation.Serves (taskContract accepts) (serveTask accepts) := by
  intro q records _
  cases q with
  | submit => exact safe_submission
  | command => exact safe_command
  | claimNext => exact safe_claimNext

/-! ## Every interleaving -/

theorem submissions_of_steps {xs : List (TaskCall × TaskReply)}
    (h : Steps (TableServes accepts) records xs records') :
    records.map Record.submission <+: records'.map Record.submission := by
  induction h with
  | nil => exact List.prefix_rfl
  | cons hs _ ih => exact (submissions_of_serves hs).trans ih

/-- The task a submission is answered with is in the table then. -/
theorem mem_of_submitted (h : TableServes accepts records (.submit c taskId call, .submitted t)
    records') : ∃ t₀, c.create taskId call = .ok t₀ ∧ t.submissionKey = t₀.submissionKey ∧
      t.inputFingerprint = t₀.inputFingerprint ∧
      (t.id, t.submissionKey, t.inputFingerprint) ∈ records'.map Record.submission := by
  replace h : submitOne accepts c taskId call records = _ := h
  unfold submitOne at h
  split at h
  · cases (Prod.mk.inj h).1
  next t₀ ht =>
  refine ⟨t₀, ht, ?_⟩
  split at h
  · next existing hfind =>
    split_ifs at h with hrefused hsame
    · cases (Prod.mk.inj h).1
    · obtain ⟨hreply, rfl⟩ := Prod.mk.inj h
      cases hreply
      have hrow : lookup Record.submissionKey t₀.submissionKey records = some existing := hfind
      have hkey : existing.submissionKey = t₀.submissionKey := key_of_lookup hrow
      exact ⟨hkey, hsame, List.mem_map_of_mem (mem_of_lookup hrow)⟩
    · cases (Prod.mk.inj h).1
  · split_ifs at h
    · obtain ⟨hreply, rfl⟩ := Prod.mk.inj h
      cases hreply
      exact ⟨rfl, rfl, List.mem_map.2 ⟨⟨t, []⟩, List.mem_append_right _ List.mem_cons_self, rfl⟩⟩
    · cases (Prod.mk.inj h).1

section Runs

variable {τ : Type} [DecidableEq τ] {x y : Database τ UUID (List Record) TaskCall TaskReply}
  {as : List (DatabaseAction τ TaskCall TaskReply)}

/-- The requests that were answered, with their answers. -/
def answersOf (as : List (DatabaseAction τ TaskCall TaskReply)) : List (TaskCall × TaskReply) :=
  as.filterMap DatabaseAction.answer?

theorem calls_serial (hx : Opened (taskContract accepts) x)
    (h : Steps (DatabaseStep (serveTask accepts)) x as y) :
    Steps (TableServes accepts) x.store (answersOf as) y.store ∧ TableSound accepts y.store := by
  have hsane := sane_of_opened hx
  refine ⟨serial serves_tasks (fun _ _ _ _ h => h) (fun _ _ _ _ _ _ hg => hg.1) hsane h, ?_⟩
  exact (h.invariant (P := Sane (taskContract accepts))
    (fun hs h => (sane_step serves_tasks hs h).1) hsane).invariant

/-- **A submission is carried out once**: whoever submits it, however often and at the same time as
whom, is answered with one task, that has the fingerprint submitted. -/
theorem submitted_once (hx : Opened (taskContract accepts) x)
    (h : Steps (DatabaseStep (serveTask accepts)) x as y) :
    (∀ {c taskId call t}, (TaskCall.submit c taskId call, .submitted t) ∈ answersOf as →
      ∃ t₀, c.create taskId call = .ok t₀ ∧ t.submissionKey = t₀.submissionKey ∧
        t.inputFingerprint = t₀.inputFingerprint ∧
        ∃ s ∈ y.store, s.taskId = t.id ∧ s.submissionKey = t.submissionKey) ∧
    ∀ {c c' taskId taskId' call call' t t'},
      (TaskCall.submit c taskId call, .submitted t) ∈ answersOf as →
      (TaskCall.submit c' taskId' call', .submitted t') ∈ answersOf as →
      t.submissionKey = t'.submissionKey →
      t.id = t'.id ∧ t.inputFingerprint = t'.inputFingerprint := by
  have hserial := (calls_serial hx h).1
  have hy := (calls_serial hx h).2
  have hstored {c : SubmitTaskCommand} {taskId : UUID} {call : Call} {t : Task}
      (hmem : (TaskCall.submit c taskId call, .submitted t) ∈ answersOf as) :
      ∃ t₀, c.create taskId call = .ok t₀ ∧ t.submissionKey = t₀.submissionKey ∧
        t.inputFingerprint = t₀.inputFingerprint ∧
        ∃ s ∈ y.store, s.submission = (t.id, t.submissionKey, t.inputFingerprint) := by
    obtain ⟨before, after, hsplit⟩ := List.append_of_mem hmem
    rw [hsplit] at hserial
    obtain ⟨records, -, hrest⟩ := hserial.split
    cases hrest with
    | cons hs hafter =>
      obtain ⟨t₀, ht₀, hkey, hprint, hrow⟩ := mem_of_submitted hs
      obtain ⟨s, hsmem, hsub⟩ := List.mem_map.1 ((submissions_of_steps hafter).subset hrow)
      exact ⟨t₀, ht₀, hkey, hprint, s, hsmem, hsub⟩
  constructor
  · intro c taskId call t hmem
    obtain ⟨t₀, ht₀, hkey, hprint, s, hs, hsub⟩ := hstored hmem
    exact ⟨t₀, ht₀, hkey, hprint, s, hs, congrArg Prod.fst hsub, congrArg (fun c => c.2.1) hsub⟩
  · intro c c' taskId taskId' call call' t t' hmem hmem' hsame
    obtain ⟨-, -, -, -, s, hs, hsub⟩ := hstored hmem
    obtain ⟨-, -, -, -, s', hs', hsub'⟩ := hstored hmem'
    have hkeys : s.submissionKey = s'.submissionKey :=
      (congrArg (fun c => c.2.1) hsub).trans (hsame.trans (congrArg (fun c => c.2.1) hsub').symm)
    obtain rfl := List.inj_on_of_nodup_map hy.keys hs hs' hkeys
    have heq := hsub.symm.trans hsub'
    exact ⟨congrArg Prod.fst heq, congrArg (fun c => c.2.2) heq⟩

end Runs

/-! ### A run -/

def sampleSubmit : SubmitTaskCommand where
  taskType := "report"
  ownerSubject := "owner"
  idempotencyKey := "key"
  inputFingerprint := "input"
  maxAttempts := 2
  displayMetadata := []
  allowManualRetry := true

def emptyTable : Database (Fin 4) UUID (List Record) TaskCall TaskReply where
  store := []
  clients _ := none

theorem opened_emptyTable : Opened (taskContract accepts) emptyTable where
  left := by
    refine ⟨⟨?_, List.nodup_nil⟩, List.nodup_nil, ?_⟩
    · exact fun _ hs => absurd hs List.not_mem_nil
    · exact fun _ hs => absurd hs List.not_mem_nil
  right _ := rfl

/-- Two clients submit the same, while two workers look for a task. -/
def sampleRun : List (DatabaseAction (Fin 4) TaskCall TaskReply) ×
    Database (Fin 4) UUID (List Record) TaskCall TaskReply :=
  Database.schedule (serveTask fun _ => true)
    [(0, some (.submit sampleSubmit 7 (callAt 0))), (1, some (.submit sampleSubmit 8 (callAt 0))),
      (0, none), (2, some (.claimNext "w1" "c1" "tok1" ⟨5, true⟩ ⟨1, true⟩ (fun _ => false)
        (callAt 1))), (2, none), (1, none), (2, none), (1, none), (2, none), (2, none), (2, none),
      (2, none), (3, some (.claimNext "w2" "c2" "tok2" ⟨5, true⟩ ⟨1, true⟩ (fun _ => false)
        (callAt 2))), (3, none)] emptyTable

/-- The ids that were submitted, and those that were answered. -/
def submissionOf : TaskCall × TaskReply → Option (UUID × Task)
  | (.submit _ taskId _, .submitted t) => some (taskId, t)
  | _ => none

theorem sampleRun_submits :
    ((answersOf sampleRun.1).filterMap submissionOf).map (fun p => (p.1, p.2.submissionKey)) =
      [(7, "owner", "report", "key"), (8, "owner", "report", "key")] := by decide +kernel

theorem steps_sampleRun :
    Steps (DatabaseStep (serveTask fun _ => true)) emptyTable sampleRun.1 sampleRun.2 :=
  steps_of_schedule

theorem submission_of_mem {a : List (TaskCall × TaskReply)} {p : UUID × String × String × String}
    (h : p ∈ (a.filterMap submissionOf).map fun p => (p.1, p.2.submissionKey)) :
    ∃ c call t, (TaskCall.submit c p.1 call, TaskReply.submitted t) ∈ a ∧
      t.submissionKey = p.2 := by
  obtain ⟨⟨taskId, t⟩, hmem, rfl⟩ := List.mem_map.1 h
  obtain ⟨⟨q, reply⟩, hmem, hof⟩ := List.mem_filterMap.1 hmem
  unfold submissionOf at hof
  split at hof
  · next c taskId' call t' heq =>
    cases heq
    cases hof
    exact ⟨c, call, t, hmem, rfl⟩
  · cases hof

theorem submitted_once_raced : ∃ c c' call call' t t',
    (TaskCall.submit c 7 call, .submitted t) ∈ answersOf sampleRun.1 ∧
      (TaskCall.submit c' 8 call', .submitted t') ∈ answersOf sampleRun.1 ∧ t.id = t'.id := by
  have h₇ := submission_of_mem (a := answersOf sampleRun.1)
    (p := (7, "owner", "report", "key")) (by rw [sampleRun_submits]; exact List.mem_cons_self)
  have h₈ := submission_of_mem (a := answersOf sampleRun.1)
    (p := (8, "owner", "report", "key")) (by
      rw [sampleRun_submits]
      exact List.mem_cons_of_mem _ List.mem_cons_self)
  obtain ⟨c, call, t, hmem, hkey⟩ := h₇
  obtain ⟨c', call', t', hmem', hkey'⟩ := h₈
  have hone := (submitted_once opened_emptyTable steps_sampleRun).2 hmem hmem'
    (hkey.trans hkey'.symm)
  exact ⟨c, c', call, call', t, t', hmem, hmem', hone.1⟩

example : sampleRun.2.store.map (fun s => (s.taskId, s.task.status)) = [(7, .running)] := by
  decide +kernel

end Service

end GoAgent.Tasks
