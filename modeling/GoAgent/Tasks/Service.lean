import GoAgent.Tasks.Succession

/-!
# The task lifecycle service

The service runs each command on a task read under a row lock and saves what the command leaves,
in one transaction: calls on one task happen one after the other, and a call that raises saves
nothing. `Record` is what the store holds for one task. A command that was processed before is
found by its receipt, a claim by its worker and claim id, and the rest by the settled attempt.

* `handle_ok` — an accepted call left the record alone or carried out the command.
* `receipts_of_steps`, `columns_of_steps`, `settled_of_steps`, `final_of_serves` — what every later
  call keeps.
-/

namespace GoAgent.Tasks

open GoAgent.Foundation GoAgent.Tasks.Task GoAgent.Tasks.TaskAttempt

structure TaskCommandReceipt where
  commandType : String
  commandId : String
  deriving DecidableEq

/-- The rows of one task. -/
structure Record where
  task : Task
  receipts : List TaskCommandReceipt := []
  deriving DecidableEq

abbrev ServiceM := EStateM TaskError Record

/-- The receipts after a save. -/
def withReceipt (receipts : List TaskCommandReceipt) :
    Option TaskCommandReceipt → List TaskCommandReceipt
  | none => receipts
  | some r => if r ∈ receipts then receipts else receipts ++ [r]

/-- Run a command on a task that was read. -/
def perform {α : Type} (method : TaskM α) (t : Task) : Except TaskError (α × Task) :=
  match method t with
  | .ok r t => .ok (r, t)
  | .error e _ => .error e

namespace TaskLifecycleService

def save (t : Task) (receipt : Option TaskCommandReceipt) : ServiceM Unit :=
  modify fun s => { task := t, receipts := withReceipt s.receipts receipt }

/-- Read, run the command, save. -/
def saved {α : Type} (method : TaskM α) (receipt : Option TaskCommandReceipt) : ServiceM α := do
  let s ← get
  let result ← lift (perform method s.task)
  save result.2 receipt
  pure result.1

/-- A command that leaves a receipt; one that finds its receipt does nothing. -/
def once (commandType commandId : String) (method : TaskM Unit) : ServiceM Unit := do
  let id ← lift (requireText commandId "命令标识")
  let s ← get
  if ⟨commandType, id⟩ ∈ s.receipts then pure ()
  else saved method (some ⟨commandType, id⟩)

def claim (workerId claimId leaseToken : String) (leaseExpiresAt : DateTime) (call : Call) :
    ServiceM TaskAttempt := do
  let s ← get
  match ← lift (s.task.findAttemptByClaim workerId claimId) with
  | some existing =>
    let token ← lift (requireText leaseToken "租约令牌")
    check (existing.leaseToken = token) (.idempotencyConflict "同一领取标识使用了不同的租约令牌。")
    pure existing
  | none => saved (Task.claim workerId claimId leaseToken leaseExpiresAt call) none

def renewLease (attemptId : UUID) (leaseToken : String) (renewalSequence : Int)
    (leaseExpiresAt : DateTime) (call : Call) : ServiceM TaskAttempt :=
  saved (Task.renewLease attemptId leaseToken renewalSequence leaseExpiresAt call) none

def cancel (commandId : String) (call : Call) : ServiceM Unit :=
  once "cancel" commandId (requestCancel commandId call)

def confirmCancellation (attemptId : UUID) (leaseToken : String) (call : Call) : ServiceM Unit :=
  saved (confirmCancel attemptId leaseToken call) none

def complete (attemptId : UUID) (leaseToken resultFingerprint resultSummary : String)
    (call : Call) : ServiceM Unit :=
  saved (Task.complete attemptId leaseToken resultFingerprint resultSummary call) none

def fail (attemptId : UUID) (leaseToken : String) (failureCategory : FailureCategory)
    (failureCode resultFingerprint : String) (retryAt : Option DateTime) (call : Call) :
    ServiceM Unit :=
  saved (Task.fail attemptId leaseToken failureCategory failureCode resultFingerprint retryAt call)
    none

def requeueDue (commandId : String) (call : Call) : ServiceM Unit :=
  once "requeue" commandId (Task.requeueDue commandId call)

def retry (commandId : String) (call : Call) : ServiceM Unit :=
  once "manual-retry" commandId (requestManualRetry commandId call)

def recover (commandId : String) (retryAt : Option DateTime) (attemptId : Option UUID)
    (call : Call) : ServiceM Unit :=
  once "recover" commandId (recoverExpiredAttempt commandId retryAt attemptId call)

/-- Issue a command to the service. -/
def handle (r : Request) : ServiceM Unit :=
  match r.command with
  | .claim workerId claimId leaseToken leaseExpiresAt =>
    discard (claim workerId claimId leaseToken leaseExpiresAt r.call)
  | .renewLease attemptId leaseToken renewalSequence leaseExpiresAt =>
    discard (renewLease attemptId leaseToken renewalSequence leaseExpiresAt r.call)
  | .requestCancel commandId => cancel commandId r.call
  | .confirmCancel attemptId leaseToken => confirmCancellation attemptId leaseToken r.call
  | .complete attemptId leaseToken fingerprint summary =>
    complete attemptId leaseToken fingerprint summary r.call
  | .fail attemptId leaseToken category code fingerprint retryAt =>
    fail attemptId leaseToken category code fingerprint retryAt r.call
  | .requeueDue commandId => requeueDue commandId r.call
  | .requestManualRetry commandId => retry commandId r.call
  | .recoverExpiredAttempt commandId retryAt attemptId => recover commandId retryAt attemptId r.call

end TaskLifecycleService

open TaskLifecycleService

/-- A call, answered or not: what raises is rolled back. -/
def respond (s : Record) (r : Request) : Record :=
  match handle r s with
  | .ok () s' => s'
  | .error _ _ => s

/-- One call on the record. -/
def Serves (s : Record) (r : Request) (s' : Record) : Prop := respond s r = s'

/-- The record of a task that was just submitted. -/
def Submitted (s : Record) : Prop := Created s.task ∧ s.receipts = []

variable {s s' s'' : Record} {t t' : Task} {r : Request} {rs : List Request} {call : Call}
  {j k : Nat} {a a' : TaskAttempt} {u : Unit}

/-! ## Inverting a call -/

theorem perform_ok {α : Type} {method : TaskM α} {x : α} :
    perform method t = .ok (x, t') ↔ method t = .ok x t' := by
  unfold perform
  cases method t <;> simp

theorem saved_ok {α : Type} {method : TaskM α} {receipt : Option TaskCommandReceipt} {x : α} :
    saved method receipt s = .ok x s' ↔
      ∃ t, method s.task = .ok x t ∧ s' = ⟨t, withReceipt s.receipts receipt⟩ := by
  simp only [saved, save, bind_ok, exists_unit, get_ok, lift_ok, modify_ok, pure_ok,
    exists_eq_left, exists_and_left, and_assoc, Prod.exists, perform_ok]
  constructor
  · rintro ⟨_, t, h, rfl, rfl⟩
    exact ⟨t, h, rfl⟩
  · rintro ⟨t, h, rfl⟩
    exact ⟨x, t, h, rfl, rfl⟩

theorem once_ok {commandType commandId : String} {method : TaskM Unit} :
    once commandType commandId method s = .ok u s' ↔ isBlank commandId = false ∧
      (⟨commandType, strip commandId⟩ ∈ s.receipts ∧ s' = s ∨
        ⟨commandType, strip commandId⟩ ∉ s.receipts ∧ ∃ t, method s.task = .ok () t ∧
          s' = ⟨t, s.receipts ++ [⟨commandType, strip commandId⟩]⟩) := by
  simp only [once, bind_ok, lift_ok, requireText_ok, get_ok, exists_eq_left, exists_and_left,
    and_assoc]
  refine and_congr_right fun _ => ?_
  by_cases hr : (⟨commandType, strip commandId⟩ : TaskCommandReceipt) ∈ s.receipts
  · simp [hr]
  · simp [hr, saved_ok, withReceipt]

/-- A claim under a worker and claim id that were used before answers with that attempt. -/
theorem claim_ok {workerId claimId leaseToken : String} {leaseExpiresAt : DateTime} :
    TaskLifecycleService.claim workerId claimId leaseToken leaseExpiresAt call s = .ok a s' ↔
      isBlank workerId = false ∧ isBlank claimId = false ∧
      ((s.task.attempts.find? fun a => a.workerId = strip workerId ∧ a.claimId = strip claimId) =
          some a ∧ isBlank leaseToken = false ∧ a.leaseToken = strip leaseToken ∧ s' = s ∨
        (s.task.attempts.find? fun a => a.workerId = strip workerId ∧ a.claimId = strip claimId) =
          none ∧ ∃ t, Task.claim workerId claimId leaseToken leaseExpiresAt call s.task = .ok a t ∧
            s' = ⟨t, s.receipts⟩) := by
  simp only [TaskLifecycleService.claim, bind_ok, get_ok, lift_ok, findAttemptByClaim,
    except_bind_ok, requireText_ok, except_pure_ok, exists_eq_left, exists_and_left, and_assoc]
  refine and_congr_right fun _ => and_congr_right fun _ => ?_
  cases hfind : s.task.attempts.find?
      fun a => a.workerId = strip workerId ∧ a.claimId = strip claimId with
  | none => simp [saved_ok, withReceipt]
  | some b =>
    simp only [exists_eq_left', bind_ok, lift_ok, requireText_ok, check_ok, pure_ok,
      exists_eq_left, exists_unit, exists_and_left, and_assoc, Option.some.injEq, reduceCtorEq,
      false_and, or_false]
    constructor
    · rintro ⟨hl, htoken, rfl, rfl⟩
      exact ⟨rfl, hl, htoken, rfl⟩
    · rintro ⟨rfl, hl, htoken, rfl⟩
      exact ⟨hl, htoken, rfl, rfl⟩

/-- **Inversion.** An accepted call was answered from the record, or carried out the command. -/
theorem handle_ok (h : handle r s = .ok u s') :
    s' = s ∨ Accepts s.task r s'.task ∧ s.receipts <+: s'.receipts := by
  obtain ⟨command, call⟩ := r
  cases command with
  | claim =>
    obtain ⟨a, h⟩ := discard_ok.1 h
    obtain ⟨-, -, ⟨-, -, -, rfl⟩ | ⟨-, t, ht, rfl⟩⟩ := claim_ok.1 h
    · exact Or.inl rfl
    · exact Or.inr ⟨discard_ok.2 ⟨a, ht⟩, List.prefix_refl _⟩
  | renewLease =>
    obtain ⟨a, h⟩ := discard_ok.1 h
    obtain ⟨t, ht, rfl⟩ := saved_ok.1 h
    exact Or.inr ⟨discard_ok.2 ⟨a, ht⟩, List.prefix_refl _⟩
  | confirmCancel | complete | fail =>
    obtain ⟨t, ht, rfl⟩ := saved_ok.1 h
    exact Or.inr ⟨ht, List.prefix_refl _⟩
  | requestCancel | requeueDue | requestManualRetry | recoverExpiredAttempt =>
    obtain ⟨-, ⟨-, rfl⟩ | ⟨-, t, ht, rfl⟩⟩ := once_ok.1 h
    · exact Or.inl rfl
    · exact Or.inr ⟨ht, List.prefix_append _ _⟩

theorem handle_of_serves (h : Serves s r s') : s' = s ∨ handle r s = .ok () s' := by
  unfold Serves respond at h
  split at h
  · next hr => exact Or.inr (h ▸ hr)
  · exact Or.inl h.symm

theorem accepts_of_serves (h : Serves s r s') :
    s' = s ∨ Accepts s.task r s'.task ∧ s.receipts <+: s'.receipts := by
  rcases handle_of_serves h with h | h
  · exact Or.inl h
  · exact handle_ok h

/-- The task of a record went through accepted commands only. -/
theorem task_reachable (h : Reachable Submitted Serves s) : Reachable Created Accepts s.task := by
  refine h.invariant (P := fun s => Reachable Created Accepts s.task) (fun hs => .start hs.1) ?_
  intro s r s' hs hr
  rcases accepts_of_serves hr with rfl | ⟨hr, -⟩
  · exact hs
  · exact hs.next hr

/-! ## What later calls keep -/

/-- A call and the attempts: nothing, one more, or a new state of an active one. -/
theorem succeeds_of_serves (h : Serves s r s') : Succeeds s.task s'.task.attempts := by
  rcases accepts_of_serves h with rfl | ⟨h, -⟩
  · exact .same
  · exact attempts_of_effect (effect_of_execute h)

theorem receipts_of_steps (h : Steps Serves s rs s') : s.receipts <+: s'.receipts := by
  induction h with
  | nil => exact List.prefix_refl _
  | cons h _ ih =>
    rcases accepts_of_serves h with rfl | ⟨-, h⟩
    · exact ih
    · exact h.trans ih

/-- A column that attempts keep only grows. -/
theorem columns_of_steps {β : Type} {f : TaskAttempt → β}
    (hf : ∀ a a', TaskAttempt.Continues a a' → f a' = f a) (h : Steps Serves s rs s') :
    s.task.attempts.map f <+: s'.task.attempts.map f := by
  induction h with
  | nil => exact List.prefix_refl _
  | cons h _ ih => exact (columns_of_succeeds hf (succeeds_of_serves h)).trans ih

/-- A settled attempt stays as it is. -/
theorem settled_of_steps (h : Steps Serves s rs s') (ha : s.task.attempts[k]? = some a)
    (hsettled : ¬a.isActive) : s'.task.attempts[k]? = some a := by
  induction h with
  | nil => exact ha
  | cons h _ ih => exact ih (settled_of_succeeds (succeeds_of_serves h) ha hsettled)

/-- A task in a final status stays in it. -/
theorem final_of_serves (h : Steps Serves s rs s') (hs : s.task.status.next = []) :
    s'.task.status = s.task.status := by
  induction h with
  | nil => rfl
  | cons h _ ih =>
    rcases accepts_of_serves h with rfl | ⟨h, -⟩
    · exact ih hs
    · have hsame := final_of_steps hs (.single h)
      exact (ih (hsame ▸ hs)).trans hsame

/-! ## Serving calls -/

theorem steps_of_foldl (s : Record) (rs : List Request) :
    Steps Serves s rs (rs.foldl respond s) := by
  induction rs generalizing s with
  | nil => exact .nil s
  | cons r rs ih => exact .cons rfl (ih _)

def newRecord : Record := ⟨newTask, []⟩

def claimedRecord : Record := ⟨claimedTask, []⟩

theorem newRecord_reachable : Reachable Submitted Serves newRecord :=
  .start ⟨newTask_created, rfl⟩

theorem claimedRecord_reachable : Reachable Submitted Serves claimedRecord :=
  newRecord_reachable.next (by decide +kernel : respond newRecord firstClaim = claimedRecord)

end GoAgent.Tasks
