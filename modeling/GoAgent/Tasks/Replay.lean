import GoAgent.Tasks.Lifecycle

/-!
# Reading a task back from its log

The log of a task tells its status and the status of each of its attempts: `replay` folds the
events, and knows nothing of the aggregate.

* `replay_of_effect` — a command and the event it logs agree.
* `replay_reproduces` — the log of every task reproduces its state.
-/

namespace GoAgent.Tasks

open GoAgent.Foundation GoAgent.Tasks.Task GoAgent.Tasks.TaskAttempt

variable {t t' : Task} {call : Call} {k : Nat} {a : TaskAttempt} {e : TaskEvent}

/-- What the log tells of a task. -/
structure Replayed where
  status : TaskStatus
  attempts : List AttemptStatus
  deriving DecidableEq

def attemptNumber (m : Metadata) : Option Nat :=
  match m.lookup "attempt_number" with
  | some (.int n) => some n.toNat
  | _ => none

/-- `TaskStatus(value)` -/
def TaskStatus.ofValue (value : String) : Option TaskStatus :=
  [TaskStatus.queued, .running, .retryWait, .cancelRequested, .succeeded, .failed, .cancelled].find?
    fun s => s.value = value

def outcome (m : Metadata) : Option TaskStatus :=
  match m.lookup "outcome" with
  | some (.text s) => TaskStatus.ofValue s
  | _ => none

/-- The attempt the event is about ends with the status. -/
def Replayed.settled (p : Replayed) (m : Metadata) (s : AttemptStatus) : List AttemptStatus :=
  match attemptNumber m with
  | some n => p.attempts.set (n - 1) s
  | none => p.attempts

def Replayed.apply (p : Replayed) (e : TaskEvent) : Replayed :=
  match e.eventType with
  | .taskCreated => ⟨.queued, []⟩
  | .taskClaimed => ⟨.running, p.attempts ++ [.active]⟩
  | .taskCancelRequested => ⟨.cancelRequested, p.attempts⟩
  | .taskCancelled => ⟨.cancelled, p.settled e.metadata .cancelled⟩
  | .taskSucceeded => ⟨.succeeded, p.settled e.metadata .succeeded⟩
  | .taskFailed => ⟨.failed, p.settled e.metadata .failed⟩
  | .taskRetryScheduled => ⟨.retryWait, p.settled e.metadata .failed⟩
  | .taskRequeued | .taskRetryRequested => ⟨.queued, p.attempts⟩
  | .taskRecovered => ⟨(outcome e.metadata).getD p.status, p.settled e.metadata .expired⟩

def replay (log : List TaskEvent) : Replayed := log.foldl Replayed.apply ⟨.queued, []⟩

/-- What the aggregate says of the same. -/
def Task.summary (t : Task) : Replayed := ⟨t.status, t.attempts.map TaskAttempt.status⟩

theorem replay_append (log : List TaskEvent) (e : TaskEvent) :
    replay (log ++ [e]) = (replay log).apply e := by
  rw [replay, List.foldl_append]
  rfl

/-! ## The metadata of an event -/

def MetaValue.stripped : MetaValue → MetaValue
  | .text s => .text (strip s)
  | .int n => .int n

theorem metadataText_ok {value : MetaValue} {label s : String}
    (h : metadataText value label = .ok s) : value.stripped = .text s := by
  cases value with
  | text x => rw [MetaValue.stripped, (requireText_ok.1 h).2]
  | int n => cases h

theorem safeEntry_ok {ty : TaskEventType} {p q : String × MetaValue} (h : safeEntry ty p = .ok q) :
    q = (strip p.1, p.2.stripped) := by
  obtain ⟨key, value⟩ := p
  simp only [safeEntry, except_bind_ok, exists_unit, requireText_ok, require_ok] at h
  obtain ⟨_, ⟨-, rfl⟩, -, -, h⟩ := h
  split_ifs at h
  · cases value with
    | int n =>
      simp only [except_bind_ok, exists_unit, require_ok, except_pure_ok] at h
      exact h.2.symm
    | text s => cases h
  all_goals
    simp only [except_bind_ok, exists_unit, require_ok, except_pure_ok] at h
    obtain ⟨s, hs, h⟩ := h
    rw [metadataText_ok hs]
    simp [h]

theorem safeMetadata_ok {ty : TaskEventType} {m m' : Metadata} (h : safeMetadata ty m = .ok m') :
    m' = m.map fun p => (strip p.1, p.2.stripped) := by
  simp only [safeMetadata, except_bind_ok, exists_unit, require_ok, except_pure_ok] at h
  obtain ⟨_, h, -, rfl⟩ := h
  have hall := (mapEach_ok.1 h).imp fun _ _ => safeEntry_ok
  clear h
  induction hall with
  | nil => rfl
  | cons hq _ ih => rw [hq, ih, List.map_cons]

theorem strip_attempt_number : strip "attempt_number" = "attempt_number" := by decide +kernel

/-- The attempt number an event was given can be read back. -/
theorem attemptNumber_of_records {ty : TaskEventType} {n : Nat} {m : Metadata}
    (h : Records e ty (("attempt_number", .int n) :: m)) : attemptNumber e.metadata = some n := by
  rw [safeMetadata_ok h.metadata]
  simp [attemptNumber, strip_attempt_number, MetaValue.stripped]

theorem ofValue_value (s : TaskStatus) : TaskStatus.ofValue s.value = some s := by
  cases s <;> decide +kernel

theorem strip_value (s : TaskStatus) : strip s.value = s.value := by
  cases s <;> decide +kernel

theorem outcome_of_records {ty : TaskEventType} {n : Nat} {s : TaskStatus}
    (h : Records e ty [("attempt_number", .int n), ("outcome", .text s.value)]) :
    outcome e.metadata = some s := by
  have hkey : strip "outcome" = "outcome" := by decide +kernel
  rw [safeMetadata_ok h.metadata]
  simp [outcome, List.lookup_cons, strip_attempt_number, hkey, MetaValue.stripped, strip_value,
    ofValue_value]

/-! ## Commands and their events -/

theorem number_of_position (hs : Sound t) (ha : t.attempts[k]? = some a) : a.number = k + 1 := by
  have h : (t.attempts.map TaskAttempt.number)[k]? = some a.number := by
    rw [List.getElem?_map, ha]
    rfl
  rw [hs.numbered] at h
  obtain ⟨hk, hget⟩ := List.getElem?_eq_some_iff.1 h
  rw [← hget, List.getElem_range', Nat.one_mul, Nat.add_comm]

/-- The event of an attempt that ends puts its status at its position. -/
theorem settled_eq (hs : Sound t) (ha : t.attempts[k]? = some a) {ty : TaskEventType}
    {m : Metadata} (he : Records e ty (("attempt_number", .int a.number) :: m)) {a' : TaskAttempt}
    {s : AttemptStatus} (hs' : a'.status = s) :
    (t.put k a').attempts.map TaskAttempt.status = t.summary.settled e.metadata s := by
  rw [Replayed.settled, attemptNumber_of_records he, number_of_position hs ha, Task.put,
    List.map_set, hs']
  rfl

/-- What a command does to the task, its event does to what the log tells. -/
theorem replay_of_effect {c : TaskCommand} (hs : Sound t) (h : Effect call t c t') :
    t'.summary = t.summary ∧ t'.events = t.events ∨
      ∃ e, t'.events = t.events ++ [e] ∧ t'.summary = t.summary.apply e := by
  cases h with
  | renewAgain | confirmAgain | completeAgain | failAgain => exact Or.inl ⟨rfl, rfl⟩
  | renew hn =>
    refine Or.inl ⟨congrArg (Replayed.mk _) ?_, rfl⟩
    exact map_put hn.2 rfl
  | @claim _ _ _ _ a e _ _ _ ha he =>
    have hactive : a.status = .active := by
      obtain ⟨-, -, -, -, -, -, -, -, rfl⟩ := (TaskAttempt.make_ok rfl).1 ha
      rfl
    exact Or.inr ⟨e, rfl, by simp [Task.summary, Replayed.apply, he.eventType, hactive]⟩
  | @cancelWaiting _ e _ he =>
    have hnone : attemptNumber e.metadata = none := by
      have hkey : strip "cancel_mode" = "cancel_mode" := by decide +kernel
      rw [safeMetadata_ok he.metadata]
      simp [attemptNumber, hkey, List.lookup_cons]
    exact Or.inr ⟨e, rfl,
      by simp [Task.summary, Replayed.apply, Replayed.settled, he.eventType, hnone]⟩
  | @cancelRunning _ e _ he | @requeue _ e _ _ he | @manualRetry _ e _ _ _ he =>
    exact Or.inr ⟨e, rfl, by simp [Task.summary, Replayed.apply, he.eventType]⟩
  | @confirm _ _ _ _ e _ hn _ he | @complete _ _ _ _ _ _ e _ hn _ _ he
    | @failRetry _ _ _ _ _ _ _ _ e _ hn _ _ _ _ _ he | @fail _ _ _ _ _ _ _ _ e _ hn _ _ _ he =>
    refine Or.inr ⟨e, rfl, ?_⟩
    rw [Replayed.apply, he.eventType]
    exact congrArg (Replayed.mk _) (settled_eq hs hn.2 he rfl)
  | @recover _ _ _ _ _ _ _ _ e _ _ ha _ _ _ he =>
    refine Or.inr ⟨e, rfl, ?_⟩
    rw [Replayed.apply, he.eventType]
    simp only [outcome_of_records he, Option.getD_some]
    exact congrArg (Replayed.mk _) (settled_eq hs ha he rfl)

theorem replay_of_accepts {r : Request} (hs : Sound t) (ht : replay t.events = t.summary)
    (h : Accepts t r t') : replay t'.events = t'.summary := by
  rcases replay_of_effect hs (effect_of_execute h) with ⟨hsame, hlog⟩ | ⟨e, hlog, happly⟩
  · rw [hlog, ht, hsame]
  · rw [hlog, replay_append, ht, happly]

/-- **The log reproduces the task**: its status, and the number and the statuses of its
attempts. -/
theorem replay_reproduces (h : Reachable Created Accepts t) :
    replay t.events = ⟨t.status, t.attempts.map TaskAttempt.status⟩ := by
  have hinv : Healthy t ∧ replay t.events = t.summary :=
    h.invariant (P := fun t => Healthy t ∧ replay t.events = t.summary)
      (fun {t} hc => ⟨healthy_of_created hc, by
        obtain ⟨hs, hattempts, -, e, hevents, hty, -⟩ := created_ok hc
        simp [replay, hevents, Replayed.apply, hty, Task.summary, hs, hattempts]⟩)
      fun hinv hr => ⟨healthy_of_execute hinv.1 hr, replay_of_accepts hinv.1.sound hinv.2 hr⟩
  exact hinv.2

theorem replay_reproduces_claimed : replay claimedTask.events = ⟨.running, [.active]⟩ :=
  (replay_reproduces claimedTask_reachable).trans (by decide +kernel)

end GoAgent.Tasks
