import GoAgent.Foundation.IsoTime
import GoAgent.Foundation.Keyed
import GoAgent.Foundation.Keyset
import GoAgent.Tasks.Reports
import GoAgent.Tasks.Service
import Mathlib.Data.Prod.Lex

/-!
# The retry scheduler

`RetryScheduler.run_once` reads the tasks whose retry is due and asks the service to queue each
again. The command is named after the task and the time its retry was due, so that a second
scheduler repeats the command and not the effect. A task can be due twice at one time: it is queued,
claimed and failed again at the instant it was due, to be retried at that instant. Then the second
command is the first one, the service finds its receipt and leaves the task waiting, on this call
and on every later one.

**The store** is a list of records of different tasks. A transaction is a request to the service for
one task; workers, recovery and other schedulers are transactions between those of the scheduler.

**The journal** (`Receipted`). What the log says of requeues is what the receipts say, so a command
without a receipt is new to the log too, and a due task takes it.

* `requeueDue_queues` — the service queues a due task exactly if it has no receipt of the command.
* `due_queued` — a candidate of `run_once` is queued when it returns exactly if the task has no
  receipt for the time it was due.
* `unanswered_of_steps` — a run that schedules no retry for a time that has a receipt leaves every
  waiting task without one.
-/

namespace GoAgent.Tasks

open GoAgent.Foundation GoAgent.Tasks.Task GoAgent.Tasks.TaskAttempt TaskLifecycleService

/-! ## The store -/

def Record.taskId (s : Record) : UUID := s.task.id

/-- A request to the service for one task. -/
abbrev Transaction := UUID × Request

def carryOut (records : List Record) (x : Transaction) : List Record :=
  records.map fun s => if s.taskId = x.1 then respond s x.2 else s

def CarriesOut (records : List Record) (x : Transaction) (records' : List Record) : Prop :=
  carryOut records x = records'

/-- The records of different tasks, as the service leaves them. -/
structure Stored (records : List Record) : Prop where
  served : ∀ s ∈ records, Reachable Submitted Serves s
  distinct : (records.map Record.taskId).Nodup

structure DueRetryCandidate where
  taskId : UUID
  availableAt : DateTime
  deriving DecidableEq

def Record.Due (s : Record) (now : DateTime) : Prop :=
  s.task.status = .retryWait ∧ s.task.availableAt.instant ≤ now.instant

instance (s : Record) (now : DateTime) : Decidable (s.Due now) := by
  unfold Record.Due
  infer_instance

def dueOrder (s : Record) : Int ×ₗ UUID := toLex (s.task.availableAt.instant, s.taskId)

/-- `get_due_retries_for_update`; `locked` are the rows that others hold. -/
def getDueRetriesForUpdate (now : DateTime) (limit : Nat) (locked : UUID → Bool)
    (records : List Record) : List DueRetryCandidate :=
  let due := records.filter fun s => s.Due now ∧ locked s.taskId = false
  ((orderedBy dueOrder due).take limit).map fun s =>
    { taskId := s.taskId
      availableAt := s.task.availableAt }

/-! ## The scheduler -/

structure SchedulingResult where
  taskId : UUID
  status : Option String
  errorCode : Option String := none
  deriving DecidableEq

/-- `_safe_error` -/
def safeError : TaskError → String
  | .stateTransition _ => "CANDIDATE_NOT_APPLICABLE"
  | _ => "TASK_SCHEDULING_FAILED"

/-- What one `run_once` gets from outside: its clock, the batch size, the rows that others have
locked, what others ask of the service before a candidate's turn, and the calls of the service. -/
structure RetryRun where
  now : DateTime
  batchSize : Nat
  locked : UUID → Bool
  others : UUID → List Transaction
  call : UUID → Call

namespace RetryScheduler

variable (isoformat : Int → String)

/-- `isoformat` is the text of a stored time, in the time zone of the session. -/
def commandId (c : DueRetryCandidate) : String :=
  "requeue:" ++ uuidText c.taskId ++ ":" ++ isoformat c.availableAt.instant

def requeue (run : RetryRun) (c : DueRetryCandidate) : Transaction :=
  (c.taskId, ⟨.requeueDue (commandId isoformat c), run.call c.taskId⟩)

def resultOf (records : List Record) (x : Transaction) : SchedulingResult :=
  match lookup Record.taskId x.1 records with
  | none =>
    { taskId := x.1
      status := none
      errorCode := some (safeError (.notFound "任务不存在。")) }
  | some s =>
    match handle x.2 s with
    | .ok () s' =>
      { taskId := x.1
        status := some s'.task.status.value }
    | .error e _ =>
      { taskId := x.1
        status := none
        errorCode := some (safeError e) }

/-- The turns of the candidates, one after the other. -/
def turns (run : RetryRun) :
    List DueRetryCandidate → List Record → List SchedulingResult × List Record
  | [], records => ([], records)
  | c :: candidates, records =>
    let found := (run.others c.taskId).foldl carryOut records
    let rest := turns run candidates (carryOut found (requeue isoformat run c))
    (resultOf found (requeue isoformat run c) :: rest.1, rest.2)

def candidates (run : RetryRun) (records : List Record) : List DueRetryCandidate :=
  getDueRetriesForUpdate run.now run.batchSize run.locked records

def runOnce (run : RetryRun) (records : List Record) : List SchedulingResult × List Record :=
  turns isoformat run (candidates run records) records

end RetryScheduler

open RetryScheduler

variable {isoformat : Int → String} {s s' : Record} {t t' : Task} {r : Request} {rs : List Request}
  {call : Call} {commandId : String} {records records' : List Record} {x : Transaction}
  {xs : List Transaction} {c : DueRetryCandidate} {cs : List DueRetryCandidate} {run : RetryRun}
  {u : Unit}

/-! ## A command that is new -/

/-- The transition a requeue logs. -/
def requeueTransition (commandId : String) : String := strip ("requeue:" ++ strip commandId)

theorem requeueTransition_inj {other : String} (hb : isBlank commandId = false)
    (ho : isBlank other = false) (h : requeueTransition commandId = requeueTransition other) :
    strip commandId = strip other := by
  have hall : ("requeue:".toList.all fun c => !isSpace c) = true := by decide
  have htag (c : Char) (hc : c ∈ "requeue:".toList) : isSpace c = false :=
    Bool.not_eq_true' _ ▸ List.all_eq_true.1 hall c hc
  unfold requeueTransition at h
  rw [strip_append_strip htag hb, strip_append_strip htag ho] at h
  apply String.toList_inj.1
  have h' := congrArg String.toList h
  rw [String.toList_append, String.toList_append] at h'
  exact List.append_cancel_left h'

theorem requeueDue_logs_its : Logs (fun i => isBlank commandId = false ∧
    i = requeueTransition commandId) (Task.requeueDue commandId call) := by
  refine logs_lift_bind fun now _ => logs_get_bind fun t => logs_check_bind <| logs_check_bind ?_
  refine logs_modify_bind (fun _ => rfl) <| logs_modify_bind (fun _ => rfl) <|
    logs_modify_bind (fun _ => rfl) <| logs_lift_bind fun command hcommand => ?_
  rcases requireText_ok.1 hcommand with ⟨hb, rfl⟩
  exact logs_recorded ⟨hb, rfl⟩

/-- The log holds no requeue without its receipt. -/
def Receipted (s : Record) : Prop :=
  ∀ commandId, isBlank commandId = false →
    (∃ e ∈ s.task.events, e.transitionId = requeueTransition commandId) →
    ⟨"requeue", strip commandId⟩ ∈ s.receipts

theorem tagged_requeueTransition : Tagged "requeue:" (requeueTransition commandId) :=
  tagged_strip (by decide)

theorem receipted_of_serves (hs : Receipted s) (h : Serves s r s') : Receipted s' := by
  rcases handle_of_serves h with rfl | hhandle
  · exact hs
  intro commandId hb hlogged
  rcases hlogged with ⟨e, he, hid⟩
  rcases handle_ok hhandle with rfl | ⟨haccepts, hkept⟩
  · exact hs commandId hb ⟨e, he, hid⟩
  have hold (hmem : e ∈ s.task.events) : ⟨"requeue", strip commandId⟩ ∈ s'.receipts :=
    hkept.subset (hs commandId hb ⟨e, hmem, hid⟩)
  rcases logged_or (by decide) haccepts he (hid ▸ tagged_requeueTransition) with hmem | htag
  · exact hold hmem
  rcases r with ⟨command, call⟩
  cases command with
  | requeueDue other =>
    rcases requeueDue_logs_its s.task () s'.task haccepts e he with hmem | ⟨ho, hother⟩
    · exact hold hmem
    · rw [requeueTransition_inj hb ho (hid.symm.trans hother)]
      exact (receipt_of_once hhandle).2
  | _ => simp [TaskCommand.tag] at htag

theorem receipted_of_reachable (h : Reachable Submitted Serves s) : Receipted s := by
  refine h.invariant (P := Receipted) ?_ fun hs h => receipted_of_serves hs h
  intro s hs commandId _ hlogged
  rcases hlogged with ⟨e, he, hid⟩
  have htag : Tagged "requeue:" e.transitionId := hid ▸ tagged_requeueTransition
  have hcreate := tagged_of_created hs.1 e he
  exact absurd (tag_unique (by decide) (by decide) hcreate htag) (by decide)

/-! ## A due task and its command -/

def receiptOf (commandId : String) : TaskCommandReceipt := ⟨"requeue", strip commandId⟩

/-- The task after a requeue, but for the log. -/
def Task.requeueing (t : Task) (call : Call) : Task :=
  { t with
    status := .queued
    availableAt := call.now
    updatedAt := call.now }

theorem requeueDue_returns (hs : Sound t) (hw : t.status = .retryWait)
    (hdue : t.availableAt.instant ≤ call.now.instant) (hz : call.now.tzAware = true)
    (hb : isBlank commandId = false) (hfresh : ¬t.Logged ("requeue:" ++ strip commandId)) :
    Task.requeueDue commandId call t =
      .ok () ((t.requeueing call).log call (requeueTransition commandId) .taskRequeued []) := by
  have hsound : Sound (t.requeueing call) :=
    sound_status hs rfl rfl rfl (by simp [Task.requeueing, TaskStatus.Live, hw])
      (by simp [Task.requeueing])
  have hmetadata : safeMetadata .taskRequeued [] = .ok [] := safeMetadata_nil rfl
  have hlog := append_returns hsound hz hmetadata
    (isBlank_append_right (isBlank_strip.trans hb)) hfresh
  simp only [Task.requeueDue, bind_ok, exists_unit, lift_ok, requireUtc_ok, requireText_ok,
    Option.some.injEq, get_ok, check_ok, modify_ok, exists_eq_left, exists_and_left, and_assoc]
  exact ⟨_, rfl, hz, hw, hdue, hb, exists_unit.1 (bind_ok.1 hlog)⟩

/-- **A due task is queued exactly if it has no receipt of the command.** -/
theorem requeueDue_queues (h : Reachable Submitted Serves s) (hw : s.task.status = .retryWait)
    (hdue : s.task.availableAt.instant ≤ call.now.instant) (hz : call.now.tzAware = true)
    (hb : isBlank commandId = false) :
    (respond s ⟨.requeueDue commandId, call⟩).task.status = .queued ↔
      receiptOf commandId ∉ s.receipts := by
  have hrespond (s' : Record) (h : TaskLifecycleService.requeueDue commandId call s = .ok () s') :
      respond s ⟨.requeueDue commandId, call⟩ = s' := by
    have hhandle : handle ⟨.requeueDue commandId, call⟩ s = .ok () s' := h
    rw [respond, hhandle]
  by_cases hr : receiptOf commandId ∈ s.receipts
  · have hsame := hrespond s (once_ok.2 ⟨hb, Or.inl ⟨hr, rfl⟩⟩)
    rw [hsame, hw]
    simp [hr]
  · have hsound := (healthy_of_reachable (task_reachable h)).sound
    have hfresh : ¬s.task.Logged ("requeue:" ++ strip commandId) :=
      fun hlogged => hr (receipted_of_reachable h commandId hb hlogged)
    have hreturns := requeueDue_returns hsound hw hdue hz hb hfresh
    have hnext := hrespond _ (once_ok.2 ⟨hb, Or.inr ⟨hr, _, hreturns, rfl⟩⟩)
    rw [hnext]
    simp [hr, Task.log, Task.requeueing]

/-! ## Turns -/

theorem id_of_effect {command : TaskCommand} (h : Effect call t command t') : t'.id = t.id := by
  cases h <;> rfl

theorem taskId_respond : (respond s r).taskId = s.taskId := by
  rcases accepts_of_serves (rfl : Serves s r (respond s r)) with hsame | ⟨haccepts, -⟩
  · rw [hsame]
  · exact id_of_effect (effect_of_execute haccepts)

theorem lookup_carryOut {id : UUID} : lookup Record.taskId id (carryOut records x) =
    (lookup Record.taskId id records).map fun s => if s.taskId = x.1 then respond s x.2 else s := by
  apply lookup_map
  intro s
  split_ifs
  · exact taskId_respond
  · rfl

theorem lookup_carryOut_self :
    lookup Record.taskId x.1 (carryOut records x) =
      (lookup Record.taskId x.1 records).map fun s => respond s x.2 := by
  rw [lookup_carryOut]
  apply Option.map_congr
  intro s hs
  exact if_pos (key_of_lookup hs)

theorem lookup_carryOut_ne {id : UUID} (h : x.1 ≠ id) :
    lookup Record.taskId id (carryOut records x) = lookup Record.taskId id records := by
  rw [lookup_carryOut]
  cases hs : lookup Record.taskId id records with
  | none => rfl
  | some s =>
    have hne : s.taskId ≠ x.1 := fun heq => h (heq.symm.trans (key_of_lookup hs))
    rw [Option.map_some, if_neg hne]

theorem lookup_others {id : UUID} (h : ∀ x ∈ xs, x.1 ≠ id) :
    lookup Record.taskId id (xs.foldl carryOut records) = lookup Record.taskId id records := by
  induction xs generalizing records with
  | nil => rfl
  | cons x xs ih =>
    rw [List.foldl_cons, ih fun y hy => h y (List.mem_cons_of_mem _ hy)]
    exact lookup_carryOut_ne (h x List.mem_cons_self)

/-- Nobody else asks for the task while the run lasts. -/
def RetryRun.LeavesAlone (run : RetryRun) (id : UUID) : Prop := ∀ i, ∀ x ∈ run.others i, x.1 ≠ id

theorem lookup_turns_ne {id : UUID} (hother : run.LeavesAlone id) (hid : id ∉ cs.map (·.taskId)) :
    lookup Record.taskId id (turns isoformat run cs records).2 = lookup Record.taskId id records := by
  induction cs generalizing records with
  | nil => rfl
  | cons c cs ih =>
    rw [List.map_cons, List.mem_cons, not_or] at hid
    rw [turns, ih hid.2, lookup_carryOut_ne (Ne.symm hid.1), lookup_others (hother c.taskId)]

/-- A candidate that nobody else asks for has its turn, and only its turn. -/
theorem lookup_turns (hn : (cs.map (·.taskId)).Nodup) (hc : c ∈ cs)
    (hother : run.LeavesAlone c.taskId) :
    lookup Record.taskId c.taskId (turns isoformat run cs records).2 =
      (lookup Record.taskId c.taskId records).map fun s => respond s (requeue isoformat run c).2 := by
  induction cs generalizing records with
  | nil => cases hc
  | cons d cs ih =>
    rw [List.map_cons, List.nodup_cons] at hn
    rw [turns]
    rcases List.mem_cons.1 hc with rfl | hmem
    · rw [lookup_turns_ne hother hn.1]
      have hfound : lookup Record.taskId c.taskId ((run.others c.taskId).foldl carryOut records) =
          lookup Record.taskId c.taskId records := lookup_others (hother c.taskId)
      rw [← hfound]
      exact lookup_carryOut_self (x := requeue isoformat run c)
    · have hne : d.taskId ≠ c.taskId := fun heq => hn.1 (heq ▸ List.mem_map_of_mem hmem)
      rw [ih hn.2 hmem, lookup_carryOut_ne hne, lookup_others (hother d.taskId)]

/-! ## Candidates -/

theorem mem_candidates (h : c ∈ candidates run records) :
    ∃ s ∈ records, s.taskId = c.taskId ∧ s.task.availableAt = c.availableAt ∧ s.Due run.now := by
  rcases List.mem_map.1 h with ⟨s, hs, rfl⟩
  have hdue := perm_orderedBy.mem_iff.1 (List.mem_of_mem_take hs)
  rw [List.mem_filter, decide_eq_true_eq] at hdue
  exact ⟨s, hdue.1, rfl, rfl, hdue.2.1⟩

theorem nodup_candidates (hn : (records.map Record.taskId).Nodup) :
    ((candidates run records).map (·.taskId)).Nodup := by
  have hdue : ((records.filter fun s => s.Due run.now ∧ run.locked s.taskId = false).map
      Record.taskId).Nodup := hn.sublist (List.filter_sublist.map _)
  have hperm := @perm_orderedBy _ _ _ dueOrder
    (records.filter fun s => s.Due run.now ∧ run.locked s.taskId = false)
  have hsorted := (hperm.map Record.taskId).nodup_iff.2 hdue
  unfold candidates getDueRetriesForUpdate
  rw [List.map_map]
  exact hsorted.sublist ((List.take_sublist _ _).map _)

theorem stored_carryOut (h : Stored records) : Stored (carryOut records x) where
  served := by
    intro s' hs'
    rcases List.mem_map.1 hs' with ⟨s, hs, rfl⟩
    split_ifs
    · exact (h.served s hs).next rfl
    · exact h.served s hs
  distinct := by
    have hids : (carryOut records x).map Record.taskId = records.map Record.taskId := by
      unfold carryOut
      rw [List.map_map]
      apply List.map_congr_left
      intro s _
      rw [Function.comp_apply]
      split_ifs
      · exact taskId_respond
      · rfl
    rw [hids]
    exact h.distinct

theorem stored_of_steps (hs : Stored records) (h : Steps CarriesOut records xs records') :
    Stored records' := by
  refine h.invariant (P := Stored) ?_ hs
  intro records x records' hs hx
  rw [← (hx : carryOut records x = records')]
  exact stored_carryOut hs

/-! ## Candidates and receipts -/

/-- The task has a receipt of the requeue that was due at the time. -/
def HasReceipt (isoformat : Int → String) (records : List Record) (c : DueRetryCandidate) : Prop :=
  ∃ s ∈ records, s.taskId = c.taskId ∧ receiptOf (RetryScheduler.commandId isoformat c) ∈ s.receipts

/-- The clock does not go back while the run lasts. -/
def RetryRun.Timely (run : RetryRun) : Prop :=
  ∀ id, (run.call id).now.tzAware = true ∧ run.now.instant ≤ (run.call id).now.instant

def statusOf (records : List Record) (id : UUID) : Option TaskStatus :=
  (lookup Record.taskId id records).map (·.task.status)

theorem not_blank_commandId : isBlank (RetryScheduler.commandId isoformat c) = false := by
  unfold RetryScheduler.commandId
  apply isBlank_eq_false (c := 'r')
  · simp
  · decide

theorem due_queued (hs : Stored records) (ht : run.Timely) (hc : c ∈ candidates run records)
    (hother : run.LeavesAlone c.taskId) :
    statusOf (runOnce isoformat run records).2 c.taskId = some .queued ↔
      ¬HasReceipt isoformat records c := by
  rcases mem_candidates hc with ⟨s, hmem, hid, havailable, hw, hdue⟩
  have hlookup : lookup Record.taskId c.taskId records = some s :=
    hid ▸ lookup_of_mem hs.distinct hmem
  have hreceipt : HasReceipt isoformat records c ↔
      receiptOf (RetryScheduler.commandId isoformat c) ∈ s.receipts := by
    constructor
    · rintro ⟨s', hmem', hid', hr⟩
      have hlookup' := lookup_of_mem hs.distinct hmem'
      rw [hid', hlookup, Option.some.injEq] at hlookup'
      rw [hlookup']
      exact hr
    · exact fun hr => ⟨s, hmem, hid, hr⟩
  have hturn := @lookup_turns isoformat records _ _ _
    (nodup_candidates hs.distinct) hc hother
  rw [statusOf, runOnce, hturn, hlookup, hreceipt, Option.map_some, Option.map_some,
    Option.some.injEq]
  exact requeueDue_queues (hs.served s hmem) hw (hdue.trans (ht c.taskId).2) (ht c.taskId).1
    not_blank_commandId

/-! ## Runs that schedule no retry twice for one time -/

/-- The retry time a command asks for. -/
def TaskCommand.retryAt : TaskCommand → Option DateTime
  | .fail _ _ _ _ _ retryAt => retryAt
  | .recoverExpiredAttempt _ retryAt _ => retryAt
  | _ => none

/-- The transaction schedules no retry for a time that has a receipt. -/
def Avoids (isoformat : Int → String) (records : List Record) (x : Transaction) : Prop :=
  ∀ time, x.2.command.retryAt = some time →
    ¬HasReceipt isoformat records { taskId := x.1, availableAt := time }

/-- A waiting task has no receipt for the time its retry is due. -/
def Unanswered (isoformat : Int → String) (records : List Record) : Prop :=
  ∀ s ∈ records, s.task.status = .retryWait → receiptOf (RetryScheduler.commandId isoformat
    { taskId := s.taskId, availableAt := s.task.availableAt }) ∉ s.receipts

/-- A task that waits was waiting before, or the command asked for the retry. -/
theorem waits_of_effect {command : TaskCommand} (h : Effect call t command t')
    (hw : t'.status = .retryWait) :
    t.status = .retryWait ∧ t'.availableAt = t.availableAt ∨
      command.retryAt = some t'.availableAt := by
  cases h with
  | renewAgain | confirmAgain | completeAgain | failAgain | renew => exact Or.inl ⟨hw, rfl⟩
  | failRetry => exact Or.inr rfl
  | recover _ _ _ _ _ hout =>
    cases hout with
    | delayed _ _ hretry => exact Or.inr hretry
    | cancel | exhausted | requeued => simp only [reduceCtorEq] at hw
  | claim | cancelWaiting | cancelRunning | confirm | complete | fail | requeue | manualRetry =>
    simp only [reduceCtorEq] at hw

/-- A new receipt of a requeue is that of a task that is queued now. -/
theorem receipt_of_serves (h : Serves s r s') (hr : receiptOf commandId ∈ s'.receipts) :
    receiptOf commandId ∈ s.receipts ∨ s'.task.status = .queued := by
  rcases handle_of_serves h with rfl | h
  · exact Or.inl hr
  rcases r with ⟨command, call⟩
  cases command with
  | claim =>
    obtain ⟨a, h⟩ := discard_ok.1 h
    obtain ⟨-, -, ⟨-, -, -, rfl⟩ | ⟨-, t, -, rfl⟩⟩ := claim_ok.1 h
    · exact Or.inl hr
    · exact Or.inl hr
  | renewLease =>
    obtain ⟨a, h⟩ := discard_ok.1 h
    obtain ⟨t, -, rfl⟩ := saved_ok.1 h
    exact Or.inl hr
  | confirmCancel | complete | fail =>
    obtain ⟨t, -, rfl⟩ := saved_ok.1 h
    exact Or.inl hr
  | requestCancel | requestManualRetry | recoverExpiredAttempt =>
    obtain ⟨-, ⟨-, rfl⟩ | ⟨-, t, -, rfl⟩⟩ := once_ok.1 h
    · exact Or.inl hr
    · left
      simpa [receiptOf] using hr
  | requeueDue =>
    obtain ⟨-, ⟨-, rfl⟩ | ⟨-, t, ht, rfl⟩⟩ := once_ok.1 h
    · exact Or.inl hr
    · have heffect := effect_of_execute (r := ⟨.requeueDue _, call⟩) ht
      cases heffect
      exact Or.inr rfl

theorem unanswered_of_submitted (h : ∀ s ∈ records, Submitted s) :
    Unanswered isoformat records := by
  intro s hs hw
  rw [(created_ok (h s hs).1).1] at hw
  cases hw

theorem unanswered_carryOut (hopen : Unanswered isoformat records)
    (hx : Avoids isoformat records x) : Unanswered isoformat (carryOut records x) := by
  intro s' hs' hw hr
  rcases List.mem_map.1 hs' with ⟨s, hs, rfl⟩
  by_cases hid : s.taskId = x.1
  · rw [if_pos hid] at hw hr
    rcases receipt_of_serves rfl hr with hr | hq
    · rw [taskId_respond] at hr
      rcases accepts_of_serves (rfl : Serves s x.2 (respond s x.2)) with hsame | ⟨haccepts, -⟩
      · rw [hsame] at hw hr
        exact hopen s hs hw hr
      · rcases waits_of_effect (effect_of_execute haccepts) hw with ⟨hbefore, htime⟩ | htime
        · rw [htime] at hr
          exact hopen s hs hbefore hr
        · exact hx _ htime ⟨s, hs, hid, hid ▸ hr⟩
    · rw [hw] at hq
      cases hq
  · rw [if_neg hid] at hw hr
    exact hopen s hs hw hr

theorem unanswered_of_steps (hopen : Unanswered isoformat records)
    (h : Steps (Guarded CarriesOut (Avoids isoformat)) records xs records') :
    Unanswered isoformat records' := by
  refine h.invariant (P := Unanswered isoformat) ?_ hopen
  intro records x records' hopen hx
  rw [← (hx.1 : carryOut records x = records')]
  exact unanswered_carryOut hopen hx.2

/-- A call at time 1. -/
def atOne (n : Nat) : Call where
  now := ⟨1, true⟩
  attemptUuid := 10 + n
  eventUuid := 100 + n

/-- The text, in UTC, of a time in the first second of the calendar. -/
def firstSecond (instant : Int) : String :=
  String.ofList (dateText 1 1 1 ++ 'T' :: (clockText 0 0 0 instant.toNat ++ offsetText 0))

/-- A task that may be attempted three times. -/
def patientRecord : Record := ⟨{ newTask with maxAttempts := 3 }, []⟩

def retryNow (attemptId : UUID) (leaseToken : String) : TaskCommand :=
  .fail attemptId leaseToken .transient "BUSY" "f1" (some ⟨1, true⟩)

def firstCycle : List Transaction :=
  [(7, ⟨.claim "w1" "c1" "tok1" ⟨5, true⟩, atOne 1⟩), (7, ⟨retryNow 11 "tok1", atOne 2⟩)]

def secondCycle : List Transaction :=
  [(7, ⟨.claim "w1" "c2" "tok2" ⟨5, true⟩, atOne 4⟩), (7, ⟨retryNow 14 "tok2", atOne 5⟩)]

def runAtOne (n : Nat) : RetryRun where
  now := ⟨1, true⟩
  batchSize := 50
  locked := fun _ => false
  others := fun _ => []
  call := fun _ => atOne n

def dueAtOne : DueRetryCandidate where
  taskId := 7
  availableAt := ⟨1, true⟩

/-- Two cycles at one instant. -/
def bothCycles : List Transaction :=
  firstCycle ++ requeue firstSecond (runAtOne 3) dueAtOne :: secondCycle

theorem patientRecord_stored : Stored [patientRecord] where
  served := by
    intro s hs
    rw [List.mem_singleton.1 hs]
    have hcreated : create "report" "owner" "key" "input" 3 [] true 7 ⟨⟨0, true⟩, 0, 100⟩ =
        .ok patientRecord.task := by decide +kernel
    exact .start ⟨⟨_, _, _, _, _, _, _, _, _, hcreated⟩, rfl⟩
  distinct := List.nodup_singleton _

theorem steps_carryOut (records : List Record) (xs : List Transaction) :
    Steps CarriesOut records xs (xs.foldl carryOut records) := by
  induction xs generalizing records with
  | nil => exact .nil records
  | cons x xs ih => exact .cons rfl (ih _)

theorem timely_runAtOne (n : Nat) : (runAtOne n).Timely := fun _ => ⟨rfl, le_refl _⟩

theorem leavesAlone_runAtOne (n : Nat) (id : UUID) : (runAtOne n).LeavesAlone id :=
  fun _ _ h => absurd h List.not_mem_nil

theorem dueAtOne_candidate :
    dueAtOne ∈ candidates (runAtOne 3) (firstCycle.foldl carryOut [patientRecord]) := by
  decide +kernel

/-- The whole run reads the clock in order. -/
def ClockRises (xs : List Transaction) (run : RetryRun) : Prop :=
  (xs.map (·.2.call.now.instant) ++ [run.now.instant]).Pairwise (· ≤ ·)

instance (xs : List Transaction) (run : RetryRun) : Decidable (ClockRises xs run) := by
  unfold ClockRises
  infer_instance

end GoAgent.Tasks
