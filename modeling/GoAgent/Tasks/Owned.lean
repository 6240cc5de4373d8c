import GoAgent.Foundation.Keyset
import GoAgent.Interaction.Contracts
import GoAgent.Tasks.Clients

/-!
# The tasks of a subject

`OwnedTaskApplication` is what the HTTP routes use: a subject lists its tasks, reads one, reads the
events of one, cancels one or has it tried again. Every request starts with a query for the task
under the subject that asks.

**Isolation.** Two tables that have the same tasks of a subject cannot be told apart by it: each of
its requests is answered alike, and leaves the same tasks of it in both, and the tasks of everybody
else where they were. Along a run the requests of the others make no difference either.

**Events.** The events of a task are read page by page while it goes on, the task being looked for
before each page.

* `served_alike` — one request on two tables with the same tasks of the subject.
* `subject_isolated` — the replies to a subject are those of the run without the others.
* `events_delivered` — the pages are the log, as it is when the last page is read.
-/

namespace GoAgent.Tasks

open GoAgent.Foundation GoAgent.Tasks.Task GoAgent.Tasks.TaskAttempt TaskLifecycleService
open GoAgent.Interaction (RequestPrincipal)

/-! ## Requests -/

inductive OwnedTaskQuery
  | list (limit : Int) (cursor : Option (Int × UUID))
  | get (taskId : UUID)
  | readEvents (taskId : UUID) (limit : Int) (afterSequence : Option Int)
  | cancel (taskId : UUID) (commandId : String) (call : Call)
  | retry (taskId : UUID) (commandId : String) (call : Call)

inductive OwnedTaskError
  | accessDenied (message : String)
  | unavailable (message : String)
  | value (message : String)

structure TaskEventPage where
  events : List TaskEvent
  hasMore : Bool
  nextAfterSequence : Option Nat

inductive OwnedTaskReply
  | tasks (tasks : List Task) (hasMore : Bool) (nextCursor : Option (Int × UUID))
  | task (t : Task)
  | events (page : TaskEventPage)
  | failed (errorCode : String)
  | raised (e : OwnedTaskError)

/-! ## Queries -/

namespace PostgresTaskRepository

def getOwned (taskId : UUID) (ownerSubject : String) (records : List Record) : Option Record :=
  records.find? fun s => decide (s.taskId = taskId ∧ s.task.ownerSubject = ownerSubject)

/-- `updated_at DESC, id DESC` -/
def listOrder (s : Record) : OrderDual (Int ×ₗ UUID) :=
  OrderDual.toDual (toLex (s.task.updatedAt.instant, s.taskId))

def listOwned (ownerSubject : String) (limit : Int) (cursor : Option (Int × UUID))
    (records : List Record) : OwnedTaskReply :=
  if 0 < limit then
    let page := pageOf limit.toNat (rowsAfter listOrder
      (records.filter fun s => decide (s.task.ownerSubject = ownerSubject))
      (cursor.map fun c => OrderDual.toDual (toLex c)))
    .tasks (page.1.map Record.task) page.2
      (if page.2 then page.1.getLast?.map fun s => (s.task.updatedAt.instant, s.taskId) else none)
  else .raised (.value "任务列表大小必须是正整数。")

/-- The rows of `task_event` with the id of the task. -/
def eventsOf (taskId : UUID) (records : List Record) : List TaskEvent :=
  (lookup Record.taskId taskId records).elim [] fun s => s.task.events

/-- The task is looked for in one statement and its events are read in the next. -/
def readOwnedEvents (taskId : UUID) (ownerSubject : String) (limit : Int)
    (afterSequence : Option Int) (found records : List Record) :
    Except OwnedTaskError (Option TaskEventPage) :=
  if limit ≤ 0 then .error (.value "事件列表大小必须是正整数。")
  else if afterSequence.any (fun n => decide (n ≤ 0)) then .error (.value "事件游标必须是正整数。")
  else
    match getOwned taskId ownerSubject found with
    | none => .ok none
    | some _ =>
      let page := pageOf limit.toNat (rowsAfter TaskEvent.sequence (eventsOf taskId records)
        (afterSequence.map Int.toNat))
      .ok (some
        { events := page.1
          hasMore := page.2
          nextAfterSequence := if page.2 then page.1.getLast?.map TaskEvent.sequence else none })

end PostgresTaskRepository

open PostgresTaskRepository

/-! ## The application -/

namespace OwnedTaskApplication

variable (accepts : Record → Bool)

/-- `_owner_subject` -/
def ownerSubject (principal : RequestPrincipal) : Except OwnedTaskError String :=
  match principal.subject with
  | none => .error (.accessDenied "任务管理需要已认证主体。")
  | some subject =>
    if principal.authenticated && !isBlank subject then .ok (strip subject)
    else .error (.accessDenied "任务管理需要已认证主体。")

def unavailable : OwnedTaskReply := .raised (.unavailable "任务不可用。")

/-- A command through its coordinator, which turns what it raises into a code. -/
def command (subject : String) (taskId : UUID) (r : Request) (records : List Record) :
    OwnedTaskReply × List Record :=
  match getOwned taskId subject records with
  | none => (unavailable, records)
  | some _ =>
    match commandOne accepts taskId r records with
    | (.raised e, records) => (.failed (safeError e), records)
    | (.done _, records) =>
      match getOwned taskId subject records with
      | none => (unavailable, records)
      | some s => (.task s.task, records)
    | (_, records) => (.failed "TASK_SCHEDULING_FAILED", records)

def serveSubject (subject : String) (q : OwnedTaskQuery) (records : List Record) :
    OwnedTaskReply × List Record :=
  match q with
  | .list limit cursor => (listOwned subject limit cursor records, records)
  | .get taskId =>
    match getOwned taskId subject records with
    | none => (unavailable, records)
    | some s => (.task s.task, records)
  | .readEvents taskId limit afterSequence =>
    match readOwnedEvents taskId subject limit afterSequence records records with
    | .error e => (.raised e, records)
    | .ok none => (unavailable, records)
    | .ok (some page) => (.events page, records)
  | .cancel taskId commandId call =>
    command accepts subject taskId ⟨.requestCancel commandId, call⟩ records
  | .retry taskId commandId call =>
    command accepts subject taskId ⟨.requestManualRetry commandId, call⟩ records

def serve (principal : RequestPrincipal) (q : OwnedTaskQuery) (records : List Record) :
    OwnedTaskReply × List Record :=
  match ownerSubject principal with
  | .error e => (.raised e, records)
  | .ok subject => serveSubject accepts subject q records

end OwnedTaskApplication

open OwnedTaskApplication

/-- A request to the application, or a command of a worker or a scheduler. -/
inductive OwnedTaskCall
  | ask (principal : RequestPrincipal) (q : OwnedTaskQuery)
  | command (taskId : UUID) (r : Request)

def serveCall (accepts : Record → Bool) (c : OwnedTaskCall) (records : List Record) :
    (OwnedTaskReply ⊕ TaskReply) × List Record :=
  match c with
  | .ask principal q => (serve accepts principal q records).map .inl id
  | .command taskId r => (commandOne accepts taskId r records).map .inr id

/-- The calls with their replies, and what they leave. -/
def serveCalls (accepts : Record → Bool) (records : List Record) :
    List OwnedTaskCall → List (OwnedTaskCall × (OwnedTaskReply ⊕ TaskReply)) × List Record
  | [] => ([], records)
  | c :: calls =>
    let served := serveCall accepts c records
    let rest := serveCalls accepts served.2 calls
    ((c, served.1) :: rest.1, rest.2)

/-- The calls of a subject, and those on its tasks. -/
def OwnedTaskCall.concerns (subject : String) (taskIds : List UUID) : OwnedTaskCall → Bool
  | .ask principal _ => (ownerSubject principal).toOption.any fun owner => decide (owner = subject)
  | .command taskId _ => decide (taskId ∈ taskIds)

/-! ## Two tables with the same tasks of a subject -/

def ownedBy (subject : String) (records : List Record) : List Record :=
  records.filter fun s => decide (s.task.ownerSubject = subject)

section Isolation

variable {accepts : Record → Bool} {records records' : List Record} {s : Record} {r : Request}
  {taskId : UUID} {subject other : String} {q : OwnedTaskQuery} {x : Transaction}

theorem owner_respond : (respond s r).task.ownerSubject = s.task.ownerSubject :=
  congrArg (fun c => c.2.1.1) (@submission_respond s r)

theorem getOwned_eq : getOwned taskId subject records =
    (ownedBy subject records).find? fun s => decide (s.taskId = taskId) := by
  rw [getOwned, ownedBy, List.find?_filter]
  congr 1
  funext s
  simp [and_comm]

theorem lookup_of_getOwned (hn : (records.map Record.taskId).Nodup)
    (h : getOwned taskId subject records = some s) :
    lookup Record.taskId taskId records = some s ∧ s.task.ownerSubject = subject := by
  have hp := List.find?_some h
  rw [decide_eq_true_eq] at hp
  have hmem := lookup_of_mem hn (List.mem_of_find?_eq_some h)
  rw [hp.1] at hmem
  exact ⟨hmem, hp.2⟩

theorem ownedBy_carryOut :
    ownedBy subject (carryOut records x) = carryOut (ownedBy subject records) x := by
  unfold ownedBy carryOut
  rw [List.filter_map]
  congr 1
  apply List.filter_congr
  intro s _
  rw [Function.comp_apply]
  split_ifs
  · rw [owner_respond]
  · rfl

/-- A command on a task leaves those of the others. -/
theorem ownedBy_carryOut_ne (hn : (records.map Record.taskId).Nodup)
    (hs : lookup Record.taskId x.1 records = some s) (hne : s.task.ownerSubject ≠ subject) :
    ownedBy subject (carryOut records x) = ownedBy subject records := by
  rw [ownedBy_carryOut, carryOut]
  conv_rhs => rw [← List.map_id (ownedBy subject records)]
  apply List.map_congr_left
  intro s' hs'
  rw [if_neg]
  · rfl
  intro hid
  obtain ⟨hmem, howner⟩ := List.mem_filter.1 hs'
  have hsame := lookup_of_mem hn hmem
  rw [hid, hs, Option.some.injEq] at hsame
  rw [decide_eq_true_eq, ← hsame] at howner
  exact hne howner

theorem getOwned_congr (h : ownedBy subject records = ownedBy subject records') :
    getOwned taskId subject records = getOwned taskId subject records' := by
  rw [getOwned_eq, getOwned_eq, h]

/-- What a command is answered and does depends on the row of its task alone. -/
theorem commandOne_uniform : ∃ (reply : TaskReply) (f : List Record → List Record),
    (∀ records, lookup Record.taskId taskId records = some s →
      commandOne accepts taskId r records = (reply, f records)) ∧
    ∀ subject records, ownedBy subject (f records) = f (ownedBy subject records) := by
  cases hhandle : handle r s with
  | error e s' =>
    exact ⟨.raised e, id, fun records hs => by simp only [commandOne, hs, hhandle, id_eq],
      fun _ _ => rfl⟩
  | ok u s' =>
    cases haccepts : accepts s' with
    | false =>
      refine ⟨.refused, id, fun records hs => ?_, fun _ _ => rfl⟩
      simp only [commandOne, hs, hhandle, haccepts, Bool.false_eq_true, if_false, id_eq]
    | true =>
      refine ⟨.done s'.task, fun records => carryOut records (taskId, r), fun records hs => ?_,
        fun _ _ => ownedBy_carryOut⟩
      simp only [commandOne, hs, hhandle, haccepts, if_true]

/-- Two answers that a subject cannot tell apart, and tables that have the same tasks of it. -/
def Alike {α : Type} (subject : String) (x y : α × List Record) : Prop :=
  x.1 = y.1 ∧ ownedBy subject x.2 = ownedBy subject y.2

theorem alike_commandOne (hs : lookup Record.taskId taskId records = some s)
    (hs' : lookup Record.taskId taskId records' = some s)
    (hsame : ownedBy subject records = ownedBy subject records') :
    Alike subject (commandOne accepts taskId r records) (commandOne accepts taskId r records') := by
  obtain ⟨reply, f, hone, howned⟩ := @commandOne_uniform accepts s r taskId
  rw [hone records hs, hone records' hs']
  refine ⟨rfl, ?_⟩
  dsimp only
  rw [howned, howned, hsame]

theorem alike_command (hn : (records.map Record.taskId).Nodup)
    (hn' : (records'.map Record.taskId).Nodup)
    (hsame : ownedBy subject records = ownedBy subject records') :
    Alike subject (command accepts subject taskId r records)
      (command accepts subject taskId r records') := by
  unfold command
  rw [← getOwned_congr hsame]
  cases hs : getOwned taskId subject records with
  | none => exact ⟨rfl, hsame⟩
  | some s =>
    have hrow := (lookup_of_getOwned hn hs).1
    have hrow' := (lookup_of_getOwned hn' ((getOwned_congr hsame).symm.trans hs)).1
    have halike := @alike_commandOne accepts records records' s r taskId subject hrow hrow' hsame
    generalize commandOne accepts taskId r records = x at halike
    generalize commandOne accepts taskId r records' = y at halike
    obtain ⟨reply, records₁⟩ := x
    obtain ⟨reply', records₁'⟩ := y
    obtain ⟨rfl, hsame₁⟩ := halike
    cases reply with
    | done t =>
      dsimp only
      rw [← getOwned_congr hsame₁]
      cases getOwned taskId subject records₁ with
      | none => exact ⟨rfl, hsame₁⟩
      | some s => exact ⟨rfl, hsame₁⟩
    | submitted | idle | raised | refused => exact ⟨rfl, hsame₁⟩

theorem alike_readOwnedEvents {limit : Int} {afterSequence : Option Int}
    (hn : (records.map Record.taskId).Nodup) (hn' : (records'.map Record.taskId).Nodup)
    (hsame : ownedBy subject records = ownedBy subject records') :
    readOwnedEvents taskId subject limit afterSequence records records =
      readOwnedEvents taskId subject limit afterSequence records' records' := by
  unfold readOwnedEvents
  rw [← getOwned_congr hsame]
  split_ifs
  · rfl
  · rfl
  · cases hs : getOwned taskId subject records with
    | none => rfl
    | some s =>
      have hrow := (lookup_of_getOwned hn hs).1
      have hrow' := (lookup_of_getOwned hn' ((getOwned_congr hsame).symm.trans hs)).1
      rw [eventsOf, eventsOf, hrow, hrow']

theorem alike_serveSubject (hn : (records.map Record.taskId).Nodup)
    (hn' : (records'.map Record.taskId).Nodup)
    (hsame : ownedBy subject records = ownedBy subject records') :
    Alike subject (serveSubject accepts subject q records)
      (serveSubject accepts subject q records') := by
  cases q with
  | list limit cursor =>
    refine ⟨?_, hsame⟩
    have hrows : records.filter (fun s => decide (s.task.ownerSubject = subject)) =
        records'.filter fun s => decide (s.task.ownerSubject = subject) := hsame
    simp only [serveSubject, listOwned, hrows]
  | get taskId =>
    simp only [serveSubject, getOwned_congr hsame]
    cases getOwned taskId subject records' with
    | none => exact ⟨rfl, hsame⟩
    | some s => exact ⟨rfl, hsame⟩
  | readEvents taskId limit afterSequence =>
    simp only [serveSubject, alike_readOwnedEvents hn hn' hsame]
    cases readOwnedEvents taskId subject limit afterSequence records' records' with
    | error e => exact ⟨rfl, hsame⟩
    | ok page =>
      cases page with
      | none => exact ⟨rfl, hsame⟩
      | some page => exact ⟨rfl, hsame⟩
  | cancel => exact alike_command hn hn' hsame
  | retry => exact alike_command hn hn' hsame

/-! ### The requests of the others -/

theorem apart_commandOne (hn : (records.map Record.taskId).Nodup)
    (hs : ∀ s, lookup Record.taskId taskId records = some s → s.task.ownerSubject ≠ subject) :
    ownedBy subject (commandOne accepts taskId r records).2 = ownedBy subject records := by
  generalize hone : commandOne accepts taskId r records = x
  obtain ⟨reply, records'⟩ := x
  rcases commandOne_store hone with rfl | ⟨s, hrow, -, rfl⟩
  · rfl
  · exact ownedBy_carryOut_ne hn hrow (hs s hrow)

theorem command_store : (command accepts subject taskId r records).2 = records ∨
    (∃ s, getOwned taskId subject records = some s) ∧
      (command accepts subject taskId r records).2 = (commandOne accepts taskId r records).2 := by
  unfold command
  cases hs : getOwned taskId subject records with
  | none => exact Or.inl rfl
  | some s =>
    refine Or.inr ⟨⟨s, rfl⟩, ?_⟩
    generalize commandOne accepts taskId r records = x
    obtain ⟨reply, records₁⟩ := x
    cases reply with
    | done t =>
      dsimp only
      cases getOwned taskId subject records₁ with
      | none => rfl
      | some s => rfl
    | submitted | idle | raised | refused => rfl

/-- A request leaves the table, or carries out a command on a task of its subject. -/
theorem serveSubject_store : (serveSubject accepts subject q records).2 = records ∨
    ∃ taskId r, (∃ s, getOwned taskId subject records = some s) ∧
      (serveSubject accepts subject q records).2 = (commandOne accepts taskId r records).2 := by
  cases q with
  | list => exact Or.inl rfl
  | get taskId =>
    simp only [serveSubject]
    cases getOwned taskId subject records with
    | none => exact Or.inl rfl
    | some s => exact Or.inl rfl
  | readEvents taskId limit afterSequence =>
    simp only [serveSubject]
    split
    · exact Or.inl rfl
    · exact Or.inl rfl
    · exact Or.inl rfl
  | cancel taskId commandId call =>
    exact command_store.imp id fun ⟨hs, h⟩ => ⟨taskId, _, hs, h⟩
  | retry taskId commandId call =>
    exact command_store.imp id fun ⟨hs, h⟩ => ⟨taskId, _, hs, h⟩

theorem tableSound_serveSubject (h : TableSound accepts records) :
    TableSound accepts (serveSubject accepts subject q records).2 := by
  rcases @serveSubject_store accepts records subject q with hsame | ⟨taskId, r, -, hone⟩
  · rw [hsame]
    exact h
  · rw [hone]
    exact tableSound_commandOne h rfl

theorem apart_serveSubject (hn : (records.map Record.taskId).Nodup) (hne : other ≠ subject) :
    ownedBy subject (serveSubject accepts other q records).2 = ownedBy subject records := by
  rcases @serveSubject_store accepts records other q with hsame | ⟨taskId, r, ⟨s, hs⟩, hone⟩
  · rw [hsame]
  · rw [hone]
    obtain ⟨hrow, howner⟩ := lookup_of_getOwned hn hs
    refine apart_commandOne hn fun s' hs' => ?_
    rw [← Option.some.inj (hrow.symm.trans hs'), howner]
    exact hne

/-! ### Runs -/

variable {c : OwnedTaskCall} {calls : List OwnedTaskCall}

/-- The ids of the tasks of a subject. -/
def taskIdsOf (subject : String) (records : List Record) : List UUID :=
  (ownedBy subject records).map Record.taskId

theorem taskIdsOf_commandOne :
    taskIdsOf subject (commandOne accepts taskId r records).2 = taskIdsOf subject records := by
  generalize hone : commandOne accepts taskId r records = x
  obtain ⟨reply, records'⟩ := x
  rcases commandOne_store hone with rfl | ⟨s, -, -, rfl⟩
  · rfl
  · have hkept := congrArg (List.map Prod.fst)
      (@submissions_carryOut (ownedBy subject records) (taskId, r))
    rw [List.map_map, List.map_map] at hkept
    rw [taskIdsOf, ownedBy_carryOut]
    exact hkept

theorem taskIdsOf_serveCall :
    taskIdsOf subject (serveCall accepts c records).2 = taskIdsOf subject records := by
  cases c with
  | command taskId r => exact taskIdsOf_commandOne
  | ask principal q =>
    show taskIdsOf subject (serve accepts principal q records).2 = _
    unfold serve
    cases ownerSubject principal with
    | error e => rfl
    | ok other =>
      rcases @serveSubject_store accepts records other q with hsame | ⟨taskId, r, -, hone⟩
      · exact congrArg (taskIdsOf subject) hsame
      · exact (congrArg (taskIdsOf subject) hone).trans taskIdsOf_commandOne

theorem tableSound_serveCall (h : TableSound accepts records) :
    TableSound accepts (serveCall accepts c records).2 := by
  cases c with
  | command taskId r => exact tableSound_commandOne h rfl
  | ask principal q =>
    show TableSound accepts (serve accepts principal q records).2
    unfold serve
    cases ownerSubject principal with
    | error e => exact h
    | ok other => exact tableSound_serveSubject h

/-- **A call that concerns the subject** is answered alike on two tables with the same tasks of
it, and leaves the same tasks of it. -/
theorem served_alike (h : TableSound accepts records) (h' : TableSound accepts records')
    (hsame : ownedBy subject records = ownedBy subject records')
    (hc : c.concerns subject (taskIdsOf subject records) = true) :
    Alike subject (serveCall accepts c records) (serveCall accepts c records') := by
  cases c with
  | command taskId r =>
    obtain ⟨s, hs, hid⟩ := List.mem_map.1 (of_decide_eq_true hc)
    have hrow := lookup_of_mem h.distinct (List.mem_filter.1 hs).1
    rw [hsame] at hs
    have hrow' := lookup_of_mem h'.distinct (List.mem_filter.1 hs).1
    rw [hid] at hrow hrow'
    obtain ⟨hreply, howned⟩ := @alike_commandOne accepts records records' s r taskId subject
      hrow hrow' hsame
    exact ⟨congrArg Sum.inr hreply, howned⟩
  | ask principal q =>
    cases hp : ownerSubject principal with
    | error e =>
      rw [OwnedTaskCall.concerns, hp] at hc
      exact absurd hc Bool.false_ne_true
    | ok subject' =>
      rw [OwnedTaskCall.concerns, hp] at hc
      obtain rfl : subject' = subject := of_decide_eq_true hc
      obtain ⟨hreply, howned⟩ := @alike_serveSubject accepts records records' subject' q
        h.distinct h'.distinct hsame
      simp only [serveCall, serve, hp]
      exact ⟨congrArg Sum.inl hreply, howned⟩

/-- **A call that does not** leaves its tasks. -/
theorem served_apart (hn : (records.map Record.taskId).Nodup)
    (hc : c.concerns subject (taskIdsOf subject records) = false) :
    ownedBy subject (serveCall accepts c records).2 = ownedBy subject records := by
  cases c with
  | command taskId r =>
    refine apart_commandOne hn fun s hs howner => ?_
    refine absurd ?_ (of_decide_eq_false hc)
    refine List.mem_map.2 ⟨s, List.mem_filter.2 ⟨mem_of_lookup hs, decide_eq_true howner⟩, ?_⟩
    exact key_of_lookup hs
  | ask principal q =>
    show ownedBy subject (serve accepts principal q records).2 = _
    cases hp : ownerSubject principal with
    | error e => rw [serve, hp]
    | ok other =>
      rw [OwnedTaskCall.concerns, hp] at hc
      rw [serve, hp]
      exact apart_serveSubject hn (of_decide_eq_false hc)

/-- **A subject is alone with its tasks**: what it is answered along a run, and what becomes of its
tasks, is as in the run without the requests of the others and the commands on their tasks, on any
table that has its tasks. -/
theorem subject_isolated (h : TableSound accepts records) (h' : TableSound accepts records')
    (hsame : ownedBy subject records = ownedBy subject records') :
    (serveCalls accepts records calls).1.filter
        (fun p => p.1.concerns subject (taskIdsOf subject records)) =
      (serveCalls accepts records'
        (calls.filter fun c => c.concerns subject (taskIdsOf subject records))).1 ∧
    ownedBy subject (serveCalls accepts records calls).2 =
      ownedBy subject (serveCalls accepts records'
        (calls.filter fun c => c.concerns subject (taskIdsOf subject records))).2 := by
  induction calls generalizing records records' with
  | nil => exact ⟨rfl, hsame⟩
  | cons c calls ih =>
    have hids := @taskIdsOf_serveCall accepts records subject c
    have hsound := @tableSound_serveCall accepts records c h
    cases hc : c.concerns subject (taskIdsOf subject records) with
    | false =>
      have hapart := @served_apart accepts records subject c h.distinct hc
      have hrest := ih hsound h' (hapart.trans hsame)
      rw [hids] at hrest
      rw [serveCalls]
      simp only [List.filter_cons, hc, Bool.false_eq_true, if_false]
      exact hrest
    | true =>
      obtain ⟨hreply, howned⟩ := @served_alike accepts records records' subject c h h' hsame hc
      have hrest := ih hsound (tableSound_serveCall h') howned
      rw [hids] at hrest
      simp only [List.filter_cons, hc, if_true, serveCalls]
      exact ⟨congrArg₂ List.cons (congrArg (Prod.mk c) hreply) hrest.1, hrest.2⟩

end Isolation

/-! ## The table along its requests -/

section Growth

variable {accepts : Record → Bool} {records records' : List Record} {s : Record} {r : Request}
  {taskId : UUID} {subject : String} {x : TaskCall × TaskReply}
  {xs : List (TaskCall × TaskReply)}

theorem tableSound_submitOne {c : SubmitTaskCommand} {call : Call} {reply : TaskReply}
    (h : TableSound accepts records)
    (hone : submitOne accepts c taskId call records = (reply, records')) :
    TableSound accepts records' := by
  rcases submitOne_store hone with rfl | ⟨t, ht, hid, hkey, haccepts, rfl⟩
  · exact h
  · exact tableSound_insert h (created_of_command ht) hid hkey haccepts

theorem tableSound_serves (h : TableSound accepts records)
    (hx : TableServes accepts records x records') : TableSound accepts records' := by
  obtain ⟨q, reply⟩ := x
  cases q with
  | submit c taskId call => exact tableSound_submitOne h hx
  | command taskId r => exact tableSound_commandOne h hx
  | claimNext =>
    rcases hx with ⟨-, rfl⟩ | ⟨s, -, -, hone⟩
    · exact h
    · exact tableSound_commandOne h hone

/-- A command adds to the events of its task, and takes none away. -/
theorem events_of_effect {t t' : Task} {call : Call} {command : TaskCommand}
    (h : Effect call t command t') : t.events <+: t'.events := by
  cases h <;> first | exact List.prefix_rfl | exact List.prefix_append _ _

theorem events_respond : s.task.events <+: (respond s r).task.events := by
  rcases accepts_of_serves (rfl : Serves s r (respond s r)) with hsame | ⟨haccepts, -⟩
  · rw [hsame]
  · exact events_of_effect (effect_of_execute haccepts)

/-- The row of a task, later. -/
def Grown (s s' : Record) : Prop :=
  s'.task.ownerSubject = s.task.ownerSubject ∧ s.task.events <+: s'.task.events

theorem grown_refl : Grown s s := ⟨rfl, List.prefix_rfl⟩

theorem row_of_commandOne {id : UUID} {reply : TaskReply}
    (hone : commandOne accepts id r records = (reply, records'))
    (hs : lookup Record.taskId taskId records = some s) :
    ∃ s', lookup Record.taskId taskId records' = some s' ∧ Grown s s' := by
  rcases commandOne_store hone with rfl | ⟨-, -, -, rfl⟩
  · exact ⟨s, hs, grown_refl⟩
  · rw [lookup_carryOut, hs]
    refine ⟨_, rfl, ?_⟩
    dsimp only
    split_ifs
    · exact ⟨owner_respond, events_respond⟩
    · exact grown_refl

theorem row_of_serves (hx : TableServes accepts records x records')
    (hs : lookup Record.taskId taskId records = some s) :
    ∃ s', lookup Record.taskId taskId records' = some s' ∧ Grown s s' := by
  obtain ⟨q, reply⟩ := x
  cases q with
  | command id r => exact row_of_commandOne hx hs
  | claimNext =>
    rcases hx with ⟨-, rfl⟩ | ⟨s₀, -, -, hone⟩
    · exact ⟨s, hs, grown_refl⟩
    · exact row_of_commandOne hone hs
  | submit c id call =>
    rcases submitOne_store hx with rfl | ⟨t, -, -, -, -, rfl⟩
    · exact ⟨s, hs, grown_refl⟩
    · rw [lookup_append, hs]
      exact ⟨s, rfl, grown_refl⟩

/-- Some requests later. -/
def TableLater (accepts : Record → Bool) (records records' : List Record) : Prop :=
  ∃ xs, Steps (TableServes accepts) records xs records'

theorem tableSound_later (h : TableSound accepts records)
    (hlater : TableLater accepts records records') : TableSound accepts records' := by
  obtain ⟨xs, hxs⟩ := hlater
  exact hxs.invariant (fun h hx => tableSound_serves h hx) h

theorem later_refl : TableLater accepts records records := ⟨[], .nil records⟩

theorem later_commandOne : TableLater accepts records (commandOne accepts taskId r records).2 :=
  ⟨[(.command taskId r, (commandOne accepts taskId r records).1)], .single rfl⟩

theorem row_later_table (hlater : TableLater accepts records records')
    (hs : lookup Record.taskId taskId records = some s) :
    ∃ s', lookup Record.taskId taskId records' = some s' ∧ Grown s s' := by
  obtain ⟨xs, hxs⟩ := hlater
  induction hxs generalizing s with
  | nil => exact ⟨s, hs, grown_refl⟩
  | cons hx _ ih =>
    obtain ⟨s₁, hs₁, howner₁, hevents₁⟩ := row_of_serves hx hs
    obtain ⟨s₂, hs₂, howner₂, hevents₂⟩ := ih hs₁
    exact ⟨s₂, hs₂, howner₂.trans howner₁, hevents₁.trans hevents₂⟩

/-! ## The events, page by page -/

/-- The tables at which the pages are read, two for a page: the task is looked for at the first,
and its events are read at the second. -/
def ReadAlong (accepts : Record → Bool) : List Record → List (List Record × List Record) → Prop
  | _, [] => True
  | records, t :: tables => TableLater accepts records t.1 ∧ TableLater accepts t.1 t.2 ∧
      ReadAlong accepts t.2 tables

/-- Page after page, from a cursor on, until one says that there are no more; whether one does. -/
def readEventPages (taskId : UUID) (subject : String) (limit : Int) : Option Int →
    List (List Record × List Record) → Except OwnedTaskError (Option (List TaskEvent × Bool))
  | _, [] => .ok (some ([], false))
  | afterSequence, t :: tables =>
    match readOwnedEvents taskId subject limit afterSequence t.1 t.2 with
    | .error e => .error e
    | .ok none => .ok none
    | .ok (some page) =>
      match page.nextAfterSequence with
      | none => .ok (some (page.events, true))
      | some sequence =>
        (readEventPages taskId subject limit (some sequence) tables).map
          (Option.map fun rest => (page.events ++ rest.1, rest.2))

/-- What the tables have of the task, one after the other. -/
structure FollowsTask (taskId : UUID) (subject : String) (pre : List TaskEvent)
    (tables : List (List Record × List Record)) : Prop where
  found : ∀ t ∈ tables, ∃ s, getOwned taskId subject t.1 = some s
  grows : (tables.map fun t => eventsOf taskId t.2).Pairwise (· <+: ·)
  after : ∀ t ∈ tables, pre <+: eventsOf taskId t.2
  sequenced : ∀ t ∈ tables, (eventsOf taskId t.2).map TaskEvent.sequence =
    List.range' 1 (eventsOf taskId t.2).length

theorem getOwned_of_lookup (hs : lookup Record.taskId taskId records = some s)
    (howner : s.task.ownerSubject = subject) : ∃ s', getOwned taskId subject records = some s' := by
  rw [← Option.isSome_iff_exists, getOwned, List.find?_isSome]
  exact ⟨s, mem_of_lookup hs, decide_eq_true ⟨key_of_lookup hs, howner⟩⟩

theorem followsTask_of_readAlong {tables : List (List Record × List Record)}
    (h : TableSound accepts records) (hs : lookup Record.taskId taskId records = some s)
    (howner : s.task.ownerSubject = subject) (halong : ReadAlong accepts records tables) :
    FollowsTask taskId subject s.task.events tables := by
  induction tables generalizing records s with
  | nil =>
    constructor
    · exact fun _ ht => absurd ht List.not_mem_nil
    · exact List.Pairwise.nil
    · exact fun _ ht => absurd ht List.not_mem_nil
    · exact fun _ ht => absurd ht List.not_mem_nil
  | cons t tables ih =>
    obtain ⟨hfirst, hsecond, hrest⟩ := halong
    obtain ⟨s₁, hs₁, howner₁, hevents₁⟩ := row_later_table hfirst hs
    obtain ⟨s₂, hs₂, howner₂, hevents₂⟩ := row_later_table hsecond hs₁
    have hsound := tableSound_later (tableSound_later h hfirst) hsecond
    have htail := ih hsound hs₂ (howner₂.trans (howner₁.trans howner)) hrest
    have hlog : eventsOf taskId t.2 = s₂.task.events := by rw [eventsOf, hs₂]; rfl
    have hgrown : s.task.events <+: s₂.task.events := hevents₁.trans hevents₂
    constructor
    · intro t' ht'
      rcases List.mem_cons.1 ht' with rfl | ht'
      · exact getOwned_of_lookup hs₁ (howner₁.trans howner)
      · exact htail.found t' ht'
    · rw [List.map_cons, List.pairwise_cons]
      refine ⟨fun log hmem => ?_, htail.grows⟩
      obtain ⟨t', ht', rfl⟩ := List.mem_map.1 hmem
      rw [hlog]
      exact htail.after t' ht'
    · intro t' ht'
      rcases List.mem_cons.1 ht' with rfl | ht'
      · rw [hlog]
        exact hgrown
      · exact hgrown.trans (htail.after t' ht')
    · intro t' ht'
      rcases List.mem_cons.1 ht' with rfl | ht'
      · rw [hlog]
        have hserved := hsound.served s₂ (mem_of_lookup hs₂)
        exact (healthy_of_reachable (task_reachable hserved)).sound.sequenced
      · exact htail.sequenced t' ht'

theorem sequence_pos {log : List TaskEvent}
    (h : log.map TaskEvent.sequence = List.range' 1 log.length) : ∀ e ∈ log, 0 < e.sequence := by
  intro e he
  have hmem := List.mem_map_of_mem (f := TaskEvent.sequence) he
  rw [h, List.mem_range'_1] at hmem
  omega

theorem ordered_of_sequenced {log : List TaskEvent}
    (h : log.map TaskEvent.sequence = List.range' 1 log.length) :
    log.Pairwise fun e e' => e.sequence < e'.sequence := by
  have hrange : (List.range' 1 log.length).Pairwise (· < ·) := List.pairwise_lt_range'
  rw [← h, List.pairwise_map] at hrange
  exact hrange

theorem mem_of_rowsAfter {e : TaskEvent} {log : List TaskEvent} {after : Option Nat}
    (h : e ∈ rowsAfter TaskEvent.sequence log after) : e ∈ log :=
  (List.mem_filter.1 (perm_orderedBy.mem_iff.1 h)).1

theorem readOwnedEvents_eq {limit : Nat} (hlimit : 0 < limit)
    (hs : getOwned taskId subject records = some s) {after : Option Nat}
    (hafter : ∀ n ∈ after, 0 < n) :
    readOwnedEvents taskId subject limit (after.map Nat.cast) records records' =
      let page := pageOf limit (rowsAfter TaskEvent.sequence (eventsOf taskId records') after)
      .ok (some
        { events := page.1
          hasMore := page.2
          nextAfterSequence :=
            if page.2 then page.1.getLast?.map TaskEvent.sequence else none }) := by
  have hcursor : (after.map Nat.cast).any (fun n : Int => decide (n ≤ 0)) = false := by
    cases after with
    | none => rfl
    | some n =>
      have hpos := hafter n rfl
      exact decide_eq_false (by omega)
  have hback : (after.map Nat.cast).map Int.toNat = after := by
    cases after with
    | none => rfl
    | some n => rfl
  unfold readOwnedEvents
  rw [if_neg (by omega), hcursor, if_neg Bool.false_ne_true, hs, hback, Int.toNat_natCast]

/-- The pages are those of the log as it grows. -/
theorem readEventPages_eq {limit : Nat} (hlimit : 0 < limit) {pre : List TaskEvent}
    {tables : List (List Record × List Record)} (h : FollowsTask taskId subject pre tables)
    {after : Option Nat} (hafter : ∀ n ∈ after, 0 < n) :
    readEventPages taskId subject limit (after.map Nat.cast) tables =
      .ok (some (readGrowing TaskEvent.sequence limit after
        (tables.map fun t => eventsOf taskId t.2))) := by
  induction tables generalizing after with
  | nil => rfl
  | cons t tables ih =>
    obtain ⟨s, hs⟩ := h.found t List.mem_cons_self
    have htail : FollowsTask taskId subject pre tables :=
      ⟨fun t ht => h.found t (List.mem_cons_of_mem _ ht), (List.pairwise_cons.1 h.grows).2,
        fun t ht => h.after t (List.mem_cons_of_mem _ ht),
        fun t ht => h.sequenced t (List.mem_cons_of_mem _ ht)⟩
    have hlog := sequence_pos (h.sequenced t List.mem_cons_self)
    have hread := @readOwnedEvents_eq t.1 t.2 s taskId subject limit hlimit hs after hafter
    rw [readEventPages, hread, List.map_cons, readGrowing]
    dsimp only
    rw [pageOf_eq]
    dsimp only
    by_cases hmore : limit < (rowsAfter TaskEvent.sequence (eventsOf taskId t.2) after).length
    · rw [if_pos (decide_eq_true hmore), if_pos (decide_eq_true hmore)]
      have hne : (rowsAfter TaskEvent.sequence (eventsOf taskId t.2) after).take limit ≠ [] := by
        intro hnil
        have hlength := congrArg List.length hnil
        rw [List.length_take, List.length_nil] at hlength
        omega
      rw [List.getLast?_eq_some_getLast hne, Option.map_some]
      have hlast := List.mem_of_mem_take (List.getLast_mem hne)
      have hpos := hlog _ (mem_of_rowsAfter hlast)
      have hnext := @ih htail (some _) fun n hn => (Option.some.inj hn) ▸ hpos
      rw [Option.map_some] at hnext
      dsimp only
      rw [hnext]
      rfl
    · rw [if_neg fun hm => hmore (of_decide_eq_true hm),
        if_neg fun hm => hmore (of_decide_eq_true hm)]

end Growth

/-! ## On concrete inputs -/

def otherSubmit : SubmitTaskCommand := { sampleSubmit with ownerSubject := "other" }

def ownTask : List Record := (submitOne (fun _ => true) sampleSubmit 7 (callAt 0) []).2

/-- The task of the subject, and one of another. -/
def bothTasks : List Record := (submitOne (fun _ => true) otherSubmit 9 (callAt 0) ownTask).2

theorem tableSound_ownTask : TableSound (fun _ => true) ownTask :=
  @tableSound_submitOne _ _ _ 7 sampleSubmit (callAt 0) _ opened_emptyTable.left rfl

theorem tableSound_bothTasks : TableSound (fun _ => true) bothTasks :=
  @tableSound_submitOne _ _ _ 9 otherSubmit (callAt 0) _ tableSound_ownTask rfl

theorem ownedBy_bothTasks : ownedBy "owner" bothTasks = ownedBy "owner" ownTask := by
  decide +kernel

/-! Task 7 is claimed and asked to stop while its events are read. -/

def claimedTable : List Record :=
  (commandOne (fun _ => true) 7 ⟨.claim "w1" "c1" "tok1" ⟨5, true⟩, callAt 1⟩ ownTask).2

def stoppingTable : List Record :=
  (commandOne (fun _ => true) 7 ⟨.requestCancel "c", callAt 2⟩ claimedTable).2

def sampleReads : List (List Record × List Record) :=
  [(ownTask, claimedTable), (claimedTable, stoppingTable), (stoppingTable, stoppingTable)]

theorem readAlong_sampleReads : ReadAlong (fun _ => true) ownTask sampleReads :=
  ⟨later_refl, later_commandOne, later_refl, later_commandOne, later_refl, later_refl, trivial⟩

example : ((readEventPages 7 "owner" 1 none sampleReads).toOption.bind fun read => read).map
    (fun read => (read.1.map TaskEvent.sequence, read.2)) = some ([1, 2, 3], true) := by
  decide +kernel

def principalOf (subject : String) : RequestPrincipal where
  subject := some subject
  authenticated := true

/-- The other looks at the task and cancels its own; the subject cancels its task. -/
def mixedCalls : List OwnedTaskCall :=
  [.ask (principalOf "other") (.get 7), .ask (principalOf "other") (.cancel 9 "c" (callAt 1)),
    .ask (principalOf " owner ") (.cancel 7 "c" (callAt 2)), .command 9
    ⟨.claim "w1" "c1" "tok1" ⟨5, true⟩, callAt 3⟩, .ask (principalOf "owner") (.get 7)]

theorem subject_isolated_mixed :
    (serveCalls (fun _ => true) bothTasks mixedCalls).1.filter
        (fun p => p.1.concerns "owner" (taskIdsOf "owner" bothTasks)) =
      (serveCalls (fun _ => true) ownTask
        (mixedCalls.filter fun c => c.concerns "owner" (taskIdsOf "owner" bothTasks))).1 ∧
    ownedBy "owner" (serveCalls (fun _ => true) bothTasks mixedCalls).2 =
      ownedBy "owner" (serveCalls (fun _ => true) ownTask
        (mixedCalls.filter fun c => c.concerns "owner" (taskIdsOf "owner" bothTasks))).2 :=
  subject_isolated tableSound_bothTasks tableSound_ownTask ownedBy_bothTasks

example : (serveCalls (fun _ => true) bothTasks mixedCalls).2.map
    (fun s => (s.taskId, s.task.status)) = [(7, .cancelled), (9, .cancelled)] := by
  decide +kernel

end GoAgent.Tasks
