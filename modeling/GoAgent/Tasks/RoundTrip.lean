import GoAgent.Foundation.Session
import GoAgent.Tasks.Repository

/-!
# Saving and reading back a task along a whole history

`Grows call t₀ t` says what the writes of one command, accepted so far, have made of a task: its
identity and the holders of its attempts are as they were, new attempts and events have the ids
drawn for the call, and everything passes its constructor again. Each write of a command keeps it
(`grows_of_execute`), and one command adds one attempt and one event at most.

* `tracked_of_reachable` — the rows store an earlier version of the task in memory.
* `task_restored` — after every save that is committed, reading back gives the task.
-/

namespace GoAgent.Tasks

open GoAgent.Foundation GoAgent.Tasks.Task GoAgent.Tasks.TaskAttempt

variable {pg : Postgres} {rows rows' : TaskRows} {t t' t₀ : Task} {call : Call}
  {k : Nat} {a a' : TaskAttempt} {base : Task} {r : Request}
  {receipt : Option TaskCommandReceipt}

/-! ## Attempts -/

/-- What the constructor of an attempt asks for. -/
structure TaskAttempt.Valid (a : TaskAttempt) : Prop where
  number : 0 < a.number
  texts : ∀ s ∈ [a.workerId, a.claimId, a.leaseToken], isBlank s = false ∧ strip s = s
  lease : a.leaseExpiresAt.tzAware = true
  created : a.createdAt.tzAware = true
  later : a.createdAt.instant < a.leaseExpiresAt.instant
  renewal : 0 ≤ a.renewalSequence
  finished : ∀ d, a.finishedAt = some d → d.tzAware = true

/-- An attempt with or without an end is accepted with its texts stripped. -/
theorem make_iff : TaskAttempt.make a = .ok a' ↔ 0 < a.number ∧ isBlank a.workerId = false ∧
    isBlank a.claimId = false ∧ isBlank a.leaseToken = false ∧ a.leaseExpiresAt.tzAware = true ∧
    a.createdAt.tzAware = true ∧ a.createdAt.instant < a.leaseExpiresAt.instant ∧
    0 ≤ a.renewalSequence ∧ (∀ d, a.finishedAt = some d → d.tzAware = true) ∧
    a' = { a with workerId := strip a.workerId, claimId := strip a.claimId,
                  leaseToken := strip a.leaseToken } := by
  obtain ⟨_, _, _, _, _, _, _, _, _, _, finishedAt, _, _, _⟩ := a
  cases finishedAt with
  | none => simp [TaskAttempt.make_ok]
  | some time =>
    simp only [TaskAttempt.make, except_bind_ok, exists_unit, require_ok, requireText_ok,
      requireUtc_ok, Option.some.injEq, except_pure_ok, forall_eq']
    constructor
    · rintro ⟨hn, _, ⟨hw, rfl⟩, _, ⟨hc, rfl⟩, _, ⟨ht, rfl⟩, _, ⟨rfl, hl⟩, _, ⟨rfl, hcr⟩, hlt, hr, _,
        ⟨rfl, hf⟩, _, rfl, rfl⟩
      exact ⟨hn, hw, hc, ht, hl, hcr, hlt, hr, hf, rfl⟩
    · rintro ⟨hn, hw, hc, ht, hl, hcr, hlt, hr, hf, rfl⟩
      exact ⟨hn, _, ⟨hw, rfl⟩, _, ⟨hc, rfl⟩, _, ⟨ht, rfl⟩, _, ⟨rfl, hl⟩, _, ⟨rfl, hcr⟩, hlt, hr, _,
        ⟨rfl, hf⟩, _, rfl, rfl⟩

/-- What is accepted is valid from then on. -/
theorem valid_of_make (h : TaskAttempt.make a = .ok a') : a'.Valid := by
  obtain ⟨hn, hw, hc, ht, hl, hcr, hlt, hr, hf, rfl⟩ := make_iff.1 h
  refine ⟨hn, ?_, hl, hcr, hlt, hr, hf⟩
  simp only [List.forall_mem_cons]
  exact ⟨⟨isBlank_strip.trans hw, strip_strip⟩, ⟨isBlank_strip.trans hc, strip_strip⟩,
    ⟨isBlank_strip.trans ht, strip_strip⟩, fun _ hs => absurd hs List.not_mem_nil⟩

/-- A valid attempt passes its constructor unchanged. -/
theorem TaskAttempt.Valid.make (h : a.Valid) : TaskAttempt.make a = .ok a := by
  have htexts := h.texts
  simp only [List.forall_mem_cons] at htexts
  obtain ⟨⟨hw, hw'⟩, ⟨hc, hc'⟩, ⟨ht, ht'⟩, -⟩ := htexts
  refine make_iff.2 ⟨h.number, hw, hc, ht, h.lease, h.created, h.later, h.renewal, h.finished, ?_⟩
  rw [hw', hc', ht']

theorem TaskAttempt.Valid.finish {status : AttemptStatus} {now : DateTime}
    {category : Option FailureCategory} {code fingerprint : Option String}
    (h : a.Valid) (hz : now.tzAware = true) :
    (a.finished status now category code fingerprint).Valid :=
  { h with finished := fun _ hd => Option.some.inj hd ▸ hz }

/-! ## The writes of a command -/

/-- The columns of a task that no update writes. -/
def Task.constant (t : Task) : UUID × String × String × String × String × Nat × DateTime :=
  (t.id, t.taskType, t.ownerSubject, t.idempotencyKey, t.inputFingerprint, t.maxAttempts,
    t.createdAt)

/-- The columns of an attempt that no update writes. -/
def TaskAttempt.constant (a : TaskAttempt) : UUID × UUID × Nat × String × String × String × DateTime :=
  (a.id, a.taskId, a.number, a.workerId, a.claimId, a.leaseToken, a.createdAt)

structure Grows (call : Call) (t₀ t : Task) : Prop where
  constant : t.constant = t₀.constant
  attempts : ∃ new, t.attempts.map TaskAttempt.constant =
    t₀.attempts.map TaskAttempt.constant ++ new ∧ ∀ c ∈ new, c.1 = call.attemptUuid
  events : ∃ new, t.events = t₀.events ++ new ∧ ∀ e ∈ new, e.id = call.eventUuid
  storable : t.Storable

theorem Grows.refl (h : t.Storable) : Grows call t t :=
  ⟨rfl, ⟨[], (List.append_nil _).symm, fun _ hc => absurd hc List.not_mem_nil⟩,
    ⟨[], (List.append_nil _).symm, fun _ he => absurd he List.not_mem_nil⟩, h⟩

section Keeping

variable {transitionId : String} {ty : TaskEventType} {m : Metadata}

/-- Another state of an attempt is put in its place. -/
theorem Grows.put (h : Grows call t₀ t) (ha : t.attempts[k]? = some a)
    (hconst : a'.constant = a.constant) (hvalid : a'.Valid) : Grows call t₀ (t.put k a') where
  constant := h.constant
  attempts := by
    rw [map_put ha hconst]
    exact h.attempts
  events := h.events
  storable :=
    { h.storable with
      attempts := fun b hb => by
        rcases List.mem_or_eq_of_mem_set hb with hb | rfl
        · exact h.storable.attempts b hb
        · exact hvalid.make }

theorem Grows.claimed (h : Grows call t₀ t) (hid : a.id = call.attemptUuid) (hvalid : a.Valid) :
    Grows call t₀ { t with attempts := t.attempts ++ [a] } where
  constant := h.constant
  attempts := by
    obtain ⟨new, hnew, hids⟩ := h.attempts
    refine ⟨new ++ [a.constant], ?_, fun c hc => ?_⟩
    · show (t.attempts ++ [a]).map _ = _
      rw [List.map_append, hnew, List.append_assoc]
      rfl
    · rcases List.mem_append.1 hc with hc | hc
      · exact hids c hc
      · rw [List.mem_singleton.1 hc]
        exact hid
  events := h.events
  storable :=
    { h.storable with
      attempts := fun b hb => by
        rcases List.mem_append.1 hb with hb | hb
        · exact h.storable.attempts b hb
        · rw [List.mem_singleton.1 hb]
          exact hvalid.make }

theorem keeps_onAttempt {α : Type} {method : AttemptM α}
    (hm : ∀ a x a', a.Valid → method a = .ok x a' → a'.constant = a.constant ∧ a'.Valid) :
    Keeps (Grows call t₀) (onAttempt k method) := by
  intro t x t' h hcall
  obtain ⟨a, a', ha, hmethod, rfl⟩ := onAttempt_ok.1 hcall
  have hvalid := valid_of_make (h.storable.attempts a (List.mem_of_getElem? ha))
  obtain ⟨hconst, hvalid'⟩ := hm a x a' hvalid hmethod
  exact h.put ha hconst hvalid'

theorem keeps_appendEvent : Keeps (Grows call t₀) (appendEvent call transitionId ty m) := by
  intro t u t' h hcall
  obtain ⟨-, e, he, rfl⟩ := appendEvent_ok.1 hcall
  obtain ⟨-, hmake⟩ := he
  have hvalid := event_idem hmake
  obtain ⟨-, -, -, _, -, he⟩ := TaskEvent.make_ok.1 hmake
  obtain ⟨new, hnew, hids⟩ := h.events
  refine ⟨h.constant, h.attempts, ⟨new ++ [e], ?_, fun e' he' => ?_⟩, ?_⟩
  · show t.events ++ [e] = _
    rw [hnew, List.append_assoc]
  · rcases List.mem_append.1 he' with he' | he'
    · exact hids e' he'
    · rw [List.mem_singleton.1 he', he]
      rfl
  · refine { h.storable with events := fun e' he' => ?_ }
    rcases List.mem_append.1 he' with he' | he'
    · exact h.storable.events e' he'
    · rw [List.mem_singleton.1 he']
      exact hvalid

theorem keeps_validateInvariants : Keeps (Grows call t₀) validateInvariants :=
  keeps_bind keeps_get fun _ => keeps_lift

/-- The end of every command. -/
theorem keeps_recorded : Keeps (Grows call t₀) (do
    appendEvent call transitionId ty m
    validateInvariants : TaskM Unit) :=
  keeps_bind keeps_appendEvent fun _ => keeps_validateInvariants

theorem keeps_status (s : TaskStatus) :
    Keeps (Grows call t₀) (modify fun t => { t with status := s } : TaskM Unit) :=
  keeps_modify fun _ h => ⟨h.constant, h.attempts, h.events, { h.storable with }⟩

theorem keeps_failureCode (c : Option String) :
    Keeps (Grows call t₀) (modify fun t => { t with failureCode := c } : TaskM Unit) :=
  keeps_modify fun _ h => ⟨h.constant, h.attempts, h.events, { h.storable with }⟩

theorem keeps_resultFingerprint (f : Option String) :
    Keeps (Grows call t₀) (modify fun t => { t with resultFingerprint := f } : TaskM Unit) :=
  keeps_modify fun _ h => ⟨h.constant, h.attempts, h.events, { h.storable with }⟩

theorem keeps_resultSummary (s : Option String) :
    Keeps (Grows call t₀) (modify fun t => { t with resultSummary := s } : TaskM Unit) :=
  keeps_modify fun _ h => ⟨h.constant, h.attempts, h.events, { h.storable with }⟩

theorem keeps_updatedAt {now : DateTime} (hz : now.tzAware = true) :
    Keeps (Grows call t₀) (modify fun t => { t with updatedAt := now } : TaskM Unit) :=
  keeps_modify fun _ h => ⟨h.constant, h.attempts, h.events, { h.storable with updated := hz }⟩

theorem keeps_availableAt {now : DateTime} (hz : now.tzAware = true) :
    Keeps (Grows call t₀) (modify fun t => { t with availableAt := now } : TaskM Unit) :=
  keeps_modify fun _ h => ⟨h.constant, h.attempts, h.events, { h.storable with available := hz }⟩

theorem keeps_cancelRequestedAt {now : DateTime} (hz : now.tzAware = true) :
    Keeps (Grows call t₀) (modify fun t => { t with cancelRequestedAt := some now } : TaskM Unit) :=
  keeps_modify fun _ h => ⟨h.constant, h.attempts, h.events,
    { h.storable with cancelled := fun _ hd => Option.some.inj hd ▸ hz }⟩

end Keeping

/-! ### The methods of an attempt -/

theorem renew_aware {leaseToken : String} {renewalSequence : Int} {leaseExpiresAt now : DateTime}
    {u : Unit} (h : renew leaseToken renewalSequence leaseExpiresAt now a = .ok u a') :
    leaseExpiresAt.tzAware = true := by
  simp only [renew, bind_ok, exists_unit, checkToken_ok, get_ok, check_ok, lift_ok, requireUtc_ok,
    Option.some.injEq, exists_eq_left, exists_and_left, and_assoc] at h
  obtain ⟨-, -, -, _, rfl, hz, -⟩ := h
  exact hz

theorem keeps_renew {leaseToken : String} {renewalSequence : Int} {leaseExpiresAt now : DateTime} :
    Keeps (Grows call t₀) (onAttempt k (renew leaseToken renewalSequence leaseExpiresAt now)) := by
  refine keeps_onAttempt fun a u a' hvalid h => ?_
  obtain ⟨-, rfl | ⟨-, hseq, hlater, rfl⟩⟩ := renew_ok h
  · exact ⟨rfl, hvalid⟩
  · exact ⟨rfl, { hvalid with
      lease := renew_aware h
      later := hvalid.later.trans hlater
      renewal := hvalid.renewal.trans hseq.le }⟩

theorem keeps_finish {status : AttemptStatus} {now : DateTime} {category : Option FailureCategory}
    {code fingerprint : Option String} (hz : now.tzAware = true) :
    Keeps (Grows call t₀) (onAttempt k (finish status now category code fingerprint)) := by
  refine keeps_onAttempt fun a u a' hvalid h => ?_
  obtain ⟨-, -, code', fingerprint', -, -, rfl⟩ := finish_ok h
  exact ⟨rfl, hvalid.finish hz⟩

theorem keeps_assertActiveLease {leaseToken : String} {call' : Call} :
    Keeps (Grows call t₀) (assertActiveLease k leaseToken call') := by
  refine keeps_bind keeps_get fun _ => keeps_bind keeps_lift fun _ => keeps_bind keeps_check
    fun _ => keeps_onAttempt fun a u a' hvalid h => ?_
  obtain ⟨-, -, rfl⟩ := assertValidLease_ok.1 h
  exact ⟨rfl, hvalid⟩

theorem keeps_assertSameTerminalResult {leaseToken fingerprint : String} :
    Keeps (Grows call t₀) (assertSameTerminalResult a leaseToken fingerprint) :=
  keeps_bind keeps_lift fun _ => keeps_bind keeps_check fun _ => keeps_check

/-! ### The commands -/

theorem aware_of_requireUtc {d now : DateTime} {label : String}
    (h : requireUtc d label = .ok now) : now.tzAware = true := (requireUtc_ok.1 h).2

theorem keeps_claim {workerId claimId leaseToken : String} {leaseExpiresAt : DateTime} :
    Keeps (Grows call t₀) (claim workerId claimId leaseToken leaseExpiresAt call) := by
  refine keeps_lift_bind fun now hnow => keeps_bind keeps_get fun _ => keeps_bind keeps_check
    fun _ => keeps_bind keeps_check fun _ => keeps_bind keeps_check fun _ =>
    keeps_lift_bind fun a ha => keeps_bind (keeps_modify fun _ h => ?_) fun _ =>
    keeps_bind (keeps_status _) fun _ => keeps_bind (keeps_updatedAt (aware_of_requireUtc hnow))
    fun _ => keeps_bind keeps_appendEvent fun _ => keeps_bind keeps_validateInvariants
    fun _ => keeps_pure
  have hid : a.id = call.attemptUuid := by
    obtain ⟨-, -, -, -, -, -, -, -, -, rfl⟩ := make_iff.1 ha
    rfl
  exact h.claimed hid (valid_of_make ha)

theorem keeps_renewLease {attemptId : UUID} {leaseToken : String} {renewalSequence : Int}
    {leaseExpiresAt : DateTime} :
    Keeps (Grows call t₀) (renewLease attemptId leaseToken renewalSequence leaseExpiresAt call) :=
  keeps_bind keeps_get fun _ => keeps_bind keeps_lift fun _ => keeps_bind keeps_lift fun _ =>
    keeps_bind keeps_check fun _ => keeps_bind keeps_check fun _ => keeps_bind keeps_lift fun _ =>
    keeps_bind keeps_check fun _ => keeps_bind keeps_renew fun _ => keeps_bind keeps_get
    fun _ => keeps_lift

theorem keeps_requestCancel {commandId : String} :
    Keeps (Grows call t₀) (requestCancel commandId call) := by
  refine keeps_lift_bind fun now hnow => keeps_bind keeps_lift fun _ => keeps_bind keeps_get
    fun t => ?_
  have hz := aware_of_requireUtc hnow
  split_ifs
  · exact keeps_bind (keeps_cancelRequestedAt hz) fun _ => keeps_bind (keeps_status _) fun _ =>
      keeps_bind (keeps_updatedAt hz) fun _ => keeps_recorded
  · exact keeps_bind (keeps_cancelRequestedAt hz) fun _ => keeps_bind (keeps_status _) fun _ =>
      keeps_bind (keeps_updatedAt hz) fun _ => keeps_recorded
  · exact keeps_bind keeps_throw fun _ => keeps_validateInvariants

theorem keeps_confirmCancel {attemptId : UUID} {leaseToken : String} :
    Keeps (Grows call t₀) (confirmCancel attemptId leaseToken call) := by
  refine keeps_bind keeps_get fun t => keeps_bind keeps_lift fun _ => keeps_bind keeps_lift
    fun a => ?_
  split_ifs
  · exact keeps_bind keeps_lift fun _ => keeps_check
  · exact keeps_bind keeps_check fun _ => keeps_bind keeps_check fun _ =>
      keeps_bind keeps_assertActiveLease fun _ => keeps_lift_bind fun now hnow =>
      keeps_bind (keeps_finish (aware_of_requireUtc hnow)) fun _ => keeps_bind (keeps_status _)
      fun _ => keeps_bind (keeps_updatedAt (aware_of_requireUtc hnow)) fun _ => keeps_recorded

theorem keeps_complete {attemptId : UUID} {leaseToken fingerprint summary : String} :
    Keeps (Grows call t₀) (complete attemptId leaseToken fingerprint summary call) := by
  refine keeps_bind keeps_get fun t => keeps_bind keeps_lift fun _ => keeps_bind keeps_lift
    fun a => keeps_bind keeps_lift fun _ => ?_
  split_ifs
  · exact keeps_assertSameTerminalResult
  · exact keeps_bind keeps_check fun _ => keeps_bind keeps_check fun _ =>
      keeps_bind keeps_assertActiveLease fun _ => keeps_lift_bind fun now hnow =>
      keeps_bind keeps_lift fun _ => keeps_bind (keeps_finish (aware_of_requireUtc hnow)) fun _ =>
      keeps_bind (keeps_status _) fun _ => keeps_bind (keeps_resultFingerprint _) fun _ =>
      keeps_bind (keeps_resultSummary _) fun _ => keeps_bind (keeps_failureCode _) fun _ =>
      keeps_bind (keeps_updatedAt (aware_of_requireUtc hnow)) fun _ => keeps_recorded

theorem aware_of_retryTime {isRetryable : Bool} {retryAt retry : Option DateTime} {now : DateTime}
    (h : retryTime isRetryable retryAt now = .ok retry) : ∀ d, retry = some d → d.tzAware = true := by
  unfold retryTime at h
  intro d hd
  split_ifs at h
  · simp only [except_bind_ok, exists_unit, requireUtc_ok, require_ok, except_pure_ok] at h
    obtain ⟨time, ⟨-, hz⟩, -, rfl⟩ := h
    exact Option.some.inj hd ▸ hz
  · rw [← except_pure_ok.1 h] at hd
    exact absurd hd.symm (Option.some_ne_none d)

theorem keeps_fail {attemptId : UUID} {leaseToken : String} {category : FailureCategory}
    {code fingerprint : String} {retryAt : Option DateTime} :
    Keeps (Grows call t₀) (fail attemptId leaseToken category code fingerprint retryAt call) := by
  refine keeps_bind keeps_get fun t => keeps_bind keeps_lift fun _ => keeps_bind keeps_lift
    fun a => keeps_bind keeps_lift fun _ => ?_
  split_ifs
  · exact keeps_assertSameTerminalResult
  · refine keeps_bind keeps_check fun _ => keeps_bind keeps_check fun _ =>
      keeps_bind keeps_assertActiveLease fun _ => keeps_lift_bind fun now hnow =>
      keeps_bind keeps_lift fun _ => keeps_lift_bind fun retry hretry =>
      keeps_bind (keeps_finish (aware_of_requireUtc hnow)) fun _ =>
      keeps_bind (keeps_failureCode _) fun _ => keeps_bind (keeps_resultFingerprint _) fun _ =>
      keeps_bind (keeps_resultSummary _) fun _ =>
      keeps_bind (keeps_updatedAt (aware_of_requireUtc hnow)) fun _ => ?_
    cases retry with
    | some time =>
      exact keeps_bind (keeps_status _) fun _ =>
        keeps_bind (keeps_availableAt (aware_of_retryTime hretry time rfl)) fun _ =>
        keeps_bind keeps_pure fun _ => keeps_recorded
    | none =>
      exact keeps_bind (keeps_status _) fun _ => keeps_bind keeps_pure fun _ => keeps_recorded

theorem keeps_requeueDue {commandId : String} :
    Keeps (Grows call t₀) (requeueDue commandId call) :=
  keeps_lift_bind fun _ hnow => keeps_bind keeps_get fun _ => keeps_bind keeps_check fun _ =>
    keeps_bind keeps_check fun _ => keeps_bind (keeps_status _) fun _ =>
    keeps_bind (keeps_availableAt (aware_of_requireUtc hnow)) fun _ =>
    keeps_bind (keeps_updatedAt (aware_of_requireUtc hnow)) fun _ => keeps_bind keeps_lift fun _ =>
    keeps_recorded

theorem keeps_requestManualRetry {commandId : String} :
    Keeps (Grows call t₀) (requestManualRetry commandId call) :=
  keeps_lift_bind fun _ hnow => keeps_bind keeps_get fun _ => keeps_bind keeps_check fun _ =>
    keeps_bind keeps_check fun _ => keeps_bind (keeps_status _) fun _ =>
    keeps_bind (keeps_availableAt (aware_of_requireUtc hnow)) fun _ =>
    keeps_bind (keeps_failureCode _) fun _ => keeps_bind (keeps_resultFingerprint _) fun _ =>
    keeps_bind (keeps_updatedAt (aware_of_requireUtc hnow)) fun _ => keeps_bind keeps_lift fun _ =>
    keeps_recorded

theorem keeps_recoverOutcome {retryAt : Option DateTime} {now : DateTime}
    (hz : now.tzAware = true) : Keeps (Grows call t₀) (recoverOutcome retryAt now) := by
  refine keeps_bind keeps_get fun t => ?_
  split_ifs
  · exact keeps_pure
  · exact keeps_bind (keeps_failureCode _) fun _ => keeps_pure
  · cases retryAt with
    | none => exact keeps_bind (keeps_availableAt hz) fun _ => keeps_pure
    | some time =>
      refine keeps_lift_bind fun time' htime => ?_
      split_ifs
      · exact keeps_bind (keeps_availableAt (aware_of_requireUtc htime)) fun _ => keeps_pure
      · exact keeps_bind (keeps_availableAt hz) fun _ => keeps_pure

theorem keeps_recoverExpiredAttempt {commandId : String} {retryAt : Option DateTime}
    {attemptId : Option UUID} :
    Keeps (Grows call t₀) (recoverExpiredAttempt commandId retryAt attemptId call) := by
  refine keeps_lift_bind fun now hnow => keeps_bind keeps_get fun t => keeps_bind keeps_check
    fun _ => keeps_bind keeps_lift fun active => ?_
  have hz := aware_of_requireUtc hnow
  cases active with
  | none => exact keeps_throw
  | some k =>
    exact keeps_bind keeps_lift fun a => keeps_bind keeps_check fun _ => keeps_bind keeps_check
      fun _ => keeps_bind (keeps_finish hz) fun _ => keeps_bind (keeps_recoverOutcome hz)
      fun outcome => keeps_bind (keeps_status outcome) fun _ => keeps_bind (keeps_updatedAt hz)
      fun _ => keeps_bind keeps_lift fun _ => keeps_recorded

theorem keeps_execute (r : Request) : Keeps (Grows r.call t₀) (execute r) := by
  obtain ⟨c, call⟩ := r
  cases c with
  | claim => exact keeps_discard keeps_claim
  | renewLease => exact keeps_discard keeps_renewLease
  | requestCancel => exact keeps_requestCancel
  | confirmCancel => exact keeps_confirmCancel
  | complete => exact keeps_complete
  | fail => exact keeps_fail
  | requeueDue => exact keeps_requeueDue
  | requestManualRetry => exact keeps_requestManualRetry
  | recoverExpiredAttempt => exact keeps_recoverExpiredAttempt

/-! ## One command -/

/-- One event and one attempt at most. -/
theorem one_of_effect {c : TaskCommand} (h : Effect call t c t') :
    t'.attempts.length ≤ t.attempts.length + 1 ∧ t'.events.length ≤ t.events.length + 1 := by
  cases h with
  | claim => simp only [List.length_append, List.length_singleton, le_refl, and_self]
  | renewAgain | confirmAgain | completeAgain | failAgain =>
    exact ⟨Nat.le_succ _, Nat.le_succ _⟩
  | renew => exact ⟨length_put.trans_le (Nat.le_succ _), Nat.le_succ _⟩
  | cancelWaiting | cancelRunning | requeue | manualRetry =>
    exact ⟨Nat.le_succ _, (List.length_append ..).le⟩
  | confirm | complete | failRetry | fail | recover =>
    exact ⟨length_put.trans_le (Nat.le_succ _), (List.length_append ..).le⟩

theorem grows_of_accepts (h : t.Storable) (hs : Accepts t r t') : Grows r.call t t' :=
  keeps_execute r t () t' (.refl h) hs

/-- A list of ids that takes one fresh id at most stays without repetition. -/
theorem nodup_grown {ids ids' new : List UUID} {id : UUID} (hnd : ids.Nodup)
    (hnew : ids' = ids ++ new) (hids : ∀ i ∈ new, i = id) (hfresh : id ∉ ids)
    (hone : ids'.length ≤ ids.length + 1) : ids'.Nodup := by
  subst hnew
  rw [List.length_append] at hone
  cases new with
  | nil =>
    rw [List.append_nil]
    exact hnd
  | cons i rest =>
    rw [List.length_cons] at hone
    obtain rfl : rest = [] := List.length_eq_zero_iff.1 (by omega)
    obtain rfl := hids i List.mem_cons_self
    rw [List.nodup_append]
    refine ⟨hnd, List.nodup_singleton _, fun x hx y hy => ?_⟩
    obtain rfl := List.mem_singleton.1 hy
    exact fun h => hfresh (h ▸ hx)

/-! ## New tasks -/

theorem storable_of_created (h : Created t) : t.Storable := by
  have hmax := (created_ok h).2.2.1
  obtain ⟨taskType, owner, key, fingerprint, maxAttempts, display, retry, id, call, h⟩ := h
  simp only [create, except_bind_ok, exists_unit, requireUtc_ok, requireText_ok, require_ok,
    Option.some.injEq, except_pure_ok] at h
  obtain ⟨_, ⟨rfl, hz⟩, _, ⟨hty, rfl⟩, _, ⟨how, rfl⟩, _, ⟨hk, rfl⟩, _, ⟨hf, rfl⟩, -, hdisplay, -, _, -,
    e, he, rfl⟩ := h
  refine ⟨?_, hmax, hz, hz, hz, fun _ hd => absurd hd.symm (Option.some_ne_none _), hdisplay,
    fun _ ha => absurd ha List.not_mem_nil, fun e' he' => ?_⟩
  · simp only [List.forall_mem_cons]
    exact ⟨⟨isBlank_strip.trans hty, strip_strip⟩, ⟨isBlank_strip.trans how, strip_strip⟩,
      ⟨isBlank_strip.trans hk, strip_strip⟩, ⟨isBlank_strip.trans hf, strip_strip⟩,
      fun _ hs => absurd hs List.not_mem_nil⟩
  · rw [List.mem_singleton.1 he']
    exact event_idem he

/-! ## Sessions -/

abbrev TaskSession := Session TaskRows Task

/-- A command is accepted, and the ids drawn for it are new to the task. -/
def TaskSession.Command (s : TaskSession) (r : Request) (t' : Task) : Prop :=
  Accepts s.value r t' ∧ r.call.attemptUuid ∉ s.value.attempts.map TaskAttempt.id ∧
    r.call.eventUuid ∉ s.value.events.map TaskEvent.id

abbrev TaskStep (pg : Postgres) :
    TaskSession → SessionAction Request (Option TaskCommandReceipt) → TaskSession → Prop :=
  SessionStep TaskSession.Command
    (fun rows task receipt rows' => saveTask pg rows task receipt = .ok rows')
    (fun rows task => loadTask rows = .ok task)

/-- The task was created and inserted. -/
def TaskOpened (pg : Postgres) (s : TaskSession) : Prop :=
  Created s.value ∧ createTask pg s.value = .ok s.rows

/-! ## What a session keeps -/

/-- The rows store the task, and it passes its constructors. -/
structure StoredSound (pg : Postgres) (rows : TaskRows) (t : Task) : Prop where
  stores : Stores pg rows t
  accepted : rows.Accepted
  storable : t.Storable
  sound : Sound t

/-- A later version of the task that can be stored. -/
structure Later (base t : Task) : Prop where
  constant : t.constant = base.constant
  attempts : base.attempts.map TaskAttempt.constant <+: t.attempts.map TaskAttempt.constant
  events : base.events <+: t.events
  storable : t.Storable
  sound : Sound t
  attemptIds : (t.attempts.map TaskAttempt.id).Nodup
  eventIds : (t.events.map TaskEvent.id).Nodup

theorem StoredSound.later (h : StoredSound pg rows t) : Later t t :=
  ⟨rfl, List.prefix_rfl, List.prefix_rfl, h.storable, h.sound,
    h.stores.attemptPks.nodup_iff.1 h.accepted.attemptPks,
    h.stores.eventPks.nodup_iff.1 h.accepted.eventPks⟩

theorem eventToRecord_reloaded {e : TaskEvent} :
    eventToRecord pg (e.reloaded pg) = eventToRecord pg e := by
  simp only [eventToRecord, TaskEvent.reloaded, Postgres.jsonb_jsonb]

theorem StoredSound.reloaded (h : StoredSound pg rows t) : StoredSound pg rows (t.reloaded pg) where
  stores :=
    { record := by
        rw [h.stores.record]
        simp only [taskToRecord, Task.reloaded, Postgres.jsonb_jsonb]
      attempts := h.stores.attempts
      events := by
        have hsame : (t.reloaded pg).events.map (eventToRecord pg) =
            t.events.map (eventToRecord pg) := by
          rw [Task.reloaded, List.map_map]
          exact List.map_congr_left fun _ _ => eventToRecord_reloaded
        rw [hsame]
        exact h.stores.events }
  accepted := h.accepted
  storable := storable_reloaded h.storable
  sound := sound_reloaded h.sound

theorem ids_of_constant {as : List TaskAttempt} :
    as.map TaskAttempt.id = (as.map TaskAttempt.constant).map Prod.fst := by
  rw [List.map_map]
  rfl

theorem Later.command {s : TaskSession} (h : Later base s.value) (hs : s.Command r t') :
    Later base t' := by
  obtain ⟨hacc, hattempt, hevent⟩ := hs
  have hg := grows_of_accepts h.storable hacc
  have hone := one_of_effect (effect_of_execute hacc)
  obtain ⟨newA, hnewA, hidsA⟩ := hg.attempts
  obtain ⟨newE, hnewE, hidsE⟩ := hg.events
  refine ⟨hg.constant.trans h.constant, ?_, ?_, hg.storable, sound_of_execute h.sound hacc, ?_, ?_⟩
  · rw [hnewA]
    exact h.attempts.trans (List.prefix_append _ _)
  · rw [hnewE]
    exact h.events.trans (List.prefix_append _ _)
  · apply @nodup_grown _ _ (newA.map Prod.fst) r.call.attemptUuid h.attemptIds _ _ hattempt
    · simpa only [List.length_map] using hone.1
    · rw [ids_of_constant, hnewA, List.map_append, ← ids_of_constant]
    · intro i hi
      obtain ⟨c, hc, rfl⟩ := List.mem_map.1 hi
      exact hidsA c hc
  · apply @nodup_grown _ _ (newE.map TaskEvent.id) r.call.eventUuid h.eventIds _ _ hevent
    · simpa only [List.length_map] using hone.2
    · rw [hnewE, List.map_append]
    · intro i hi
      obtain ⟨e, he, rfl⟩ := List.mem_map.1 hi
      exact hidsE e he

theorem updateTaskRecord_eq (h : t.constant = base.constant) :
    updateTaskRecord pg (taskToRecord pg base) t = taskToRecord pg t := by
  simp only [Task.constant, Prod.mk.injEq] at h
  obtain ⟨h₁, h₂, h₃, h₄, h₅, h₆, h₇⟩ := h
  simp only [updateTaskRecord, taskToRecord, h₁, h₂, h₃, h₄, h₅, h₆, h₇]

theorem updateAttemptRecord_eq (h : a'.constant = a.constant) :
    updateAttemptRecord (attemptToRecord a) a' = attemptToRecord a' := by
  simp only [TaskAttempt.constant, Prod.mk.injEq] at h
  obtain ⟨h₁, h₂, h₃, h₄, h₅, h₆, h₇⟩ := h
  simp only [updateAttemptRecord, attemptToRecord, h₁, h₂, h₃, h₄, h₅, h₆, h₇]

theorem Later.attempts_perm (hbase : StoredSound pg rows base) (h : Later base t) :
    (t.attempts.foldl (upsert TaskAttemptRecord.id TaskAttempt.id attemptToRecord
      updateAttemptRecord rows.attempts) rows.attempts).Perm (t.attempts.map attemptToRecord) := by
  have hids := h.attemptIds
  obtain ⟨rest, hrest⟩ := h.attempts
  obtain ⟨old, new, hattempts, hold, -⟩ := List.map_eq_append_iff.1 hrest.symm
  rw [hattempts] at hids ⊢
  refine upsert_perm hbase.stores.attempts hbase.accepted.attemptPks hids (fun _ => rfl)
    (fun _ _ => rfl) ?_
  rw [← List.forall₂_eq_eq_eq, List.forall₂_map_left_iff, List.forall₂_map_right_iff] at hold
  exact hold.flip.imp fun _ _ hc => ⟨congrArg Prod.fst hc, updateAttemptRecord_eq hc⟩

theorem Later.saved (hbase : StoredSound pg rows base) (h : Later base t)
    (hs : saveTask pg rows t receipt = .ok rows') : StoredSound pg rows' t := by
  obtain ⟨hacc, rfl⟩ := commitRows_ok.1 hs
  refine ⟨⟨?_, h.attempts_perm hbase,
    insert_perm hbase.stores.events h.events h.eventIds fun _ => rfl⟩, hacc, h.storable, h.sound⟩
  show updateTaskRecord pg rows.task t = _
  rw [hbase.stores.record]
  exact updateTaskRecord_eq h.constant

theorem tracked_of_reachable {s : TaskSession} (h : Reachable (TaskOpened pg) (TaskStep pg) s) :
    ∃ base, StoredSound pg s.rows base ∧ Later base s.value := by
  refine @tracked _ _ _ _ _ _ _ _ (StoredSound pg) Later ?_ ?_ ?_ ?_ s h
  · intro s hs
    obtain ⟨hstores, hacc⟩ := stores_of_create hs.1 hs.2
    have hstored : StoredSound pg s.rows s.value :=
      ⟨hstores, hacc, storable_of_created hs.1, (healthy_of_created hs.1).sound⟩
    exact ⟨hstored, hstored.later⟩
  · exact fun _ hlater hs => hlater.command hs
  · intro rows base t receipt rows' hbase hlater hs
    exact ⟨hlater.saved hbase hs, (hlater.saved hbase hs).later⟩
  · intro rows base t hbase hs
    obtain rfl := Except.ok.inj
      (hs.symm.trans (load_of_stores hbase.stores hbase.storable hbase.sound))
    exact ⟨hbase.reloaded, hbase.reloaded.later⟩

/-! ## The round trip -/

/-- **Reading back restores the task.** -/
theorem task_restored {s : TaskSession} (h : Reachable (TaskOpened pg) (TaskStep pg) s)
    (hs : saveTask pg s.rows s.value receipt = .ok rows') : ∃ loaded, loadTask rows' = .ok loaded ∧
      { loaded with displayMetadata := s.value.displayMetadata, events := s.value.events } = s.value ∧
      loaded.displayMetadata.Perm s.value.displayMetadata ∧
      List.Forall₂ (fun e e' => { e' with metadata := e.metadata } = e ∧ e'.metadata.Perm e.metadata)
        s.value.events loaded.events := by
  obtain ⟨base, hbase, hlater⟩ := tracked_of_reachable h
  have hsaved := hlater.saved hbase hs
  refine ⟨s.value.reloaded pg, load_of_stores hsaved.stores hsaved.storable hsaved.sound, rfl,
    pg.jsonb_perm, ?_⟩
  show List.Forall₂ _ s.value.events (s.value.events.map _)
  rw [List.forall₂_map_right_iff]
  exact List.forall₂_same.2 fun e _ => ⟨rfl, pg.jsonb_perm⟩

/-! ## Sessions on concrete inputs -/

theorem total_text : Std.Total fun s t : String => s ≤ t := inferInstance

theorem trans_text : IsTrans String fun s t => s ≤ t := inferInstance

theorem antisymm_text : Std.Antisymm fun s t : String => s ≤ t := inferInstance

/-- Texts in the order of their code points. -/
def byCodePoint : TextOrder where
  le s t := s ≤ t
  decidable := inferInstance
  total := total_text
  trans := trans_text
  antisymm := antisymm_text

def database : Postgres := ⟨byCodePoint, byCodePoint⟩

theorem ok_of_isSome {ε α : Type} {x : Except ε α} (h : x.toOption.isSome = true) :
    x = .ok (x.toOption.get h) := by
  cases x with
  | ok a => rfl
  | error e => cases h

theorem newTask_inserted : (createTask database newTask).toOption.isSome = true := by
  decide +kernel

def newSession : TaskSession where
  rows := (createTask database newTask).toOption.get newTask_inserted
  value := newTask

/-- The task was claimed, and this was not saved. -/
def claimedSession : TaskSession := { newSession with value := claimedTask }

theorem claimedSession_reached :
    Reachable (TaskOpened database) (TaskStep database) claimedSession := by
  refine (Reachable.start (s := newSession) ⟨newTask_created, ok_of_isSome newTask_inserted⟩).next
    (.command (a := firstClaim) ⟨claimedTask_accepted, ?_, ?_⟩)
  · exact List.not_mem_nil
  · decide +kernel

theorem claimedSession_saved :
    (saveTask database claimedSession.rows claimedTask none).toOption.isSome = true := by
  decide +kernel

theorem task_restored_claimed : ∃ loaded,
    loadTask ((saveTask database claimedSession.rows claimedTask none).toOption.get
      claimedSession_saved) = .ok loaded ∧ loaded.attempts = claimedTask.attempts := by
  obtain ⟨loaded, hload, hsame, -, -⟩ :=
    task_restored claimedSession_reached (ok_of_isSome claimedSession_saved)
  have hattempts := congrArg Task.attempts hsame
  exact ⟨loaded, hload, hattempts⟩

/-- A summary that no text column holds. -/
def nulReport : Request := ⟨.complete 11 "tok1" "f1" "done\x00", callAt 2⟩

def reportedSession : TaskSession :=
  { newSession with value := (play [nulReport] claimedTask).get (by decide +kernel) }

theorem reportedSession_reached :
    Reachable (TaskOpened database) (TaskStep database) reportedSession := by
  refine claimedSession_reached.next
    (.command (a := nulReport) ⟨accepts_of_play (Option.some_get _).symm, ?_, ?_⟩)
  · decide +kernel
  · decide +kernel

/-- The database may refuse the save of an accepted command. -/
theorem report_refused : ¬∀ pg s, Reachable (TaskOpened pg) (TaskStep pg) s →
    ∃ rows', saveTask pg s.rows s.value none = .ok rows' := by
  intro hall
  obtain ⟨rows', hs⟩ := hall _ _ reportedSession_reached
  have hrefused : (saveTask database reportedSession.rows reportedSession.value none).toOption =
      none := by decide +kernel
  rw [hs] at hrefused
  exact absurd hrefused (Option.some_ne_none rows')

end GoAgent.Tasks
